import MemLogic.CommandLine.Switch

/-! The usage and help texts. -/

namespace MemLogic.CommandLine

def usageLines : List Text :=
  ["usage: memaddr_parser [-h] [--format \x7btext,json,addresses\x7d] [--plain]".toList,
    "                      [--output FILE] [--verbose]".toList,
    "                      mem".toList]

def helpLines : List Text :=
  usageLines ++
  ["".toList,
    "Mem Parser – decode a Mem string and show its logic".toList,
    "".toList,
    "positional arguments:".toList,
    "  mem                   Mem string to parse ('-' reads it from stdin)".toList,
    "".toList,
    "options:".toList,
    "  -h, --help            show this help message and exit".toList,
    "  --format \x7btext,json,addresses\x7d, -f \x7btext,json,addresses\x7d".toList,
    "                        Output format (default: text)".toList,
    "  --plain               Plain text headers without markdown or code fences".toList,
    "  --output FILE, -o FILE".toList,
    "                        Output file (default: stdout)".toList,
    "  --verbose, -v         Enable verbose (DEBUG) logging".toList]

/-- A faulty use is answered with the usage and one line that names the fault. -/
def UsageError.report (e : UsageError) : List Text :=
  usageLines ++ ["memaddr_parser: error: ".toList ++ e.message]

end MemLogic.CommandLine
