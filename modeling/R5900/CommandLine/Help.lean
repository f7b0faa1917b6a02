/-!
# Help

What the program prints when it is asked for help.
-/

namespace R5900

/-- The lines of the help, the last of them empty. -/
def helpLines : List String :=
  ["Usage: emotion [-d] [-b <bios>] [--log <log>] [--cycles <cycles>] [-e <entry>] " ++
      "[--bus-divider <bus-divider>] [--] [<file>]",
    "",
    "Emotion Engine interpreter",
    "",
    "Positional Arguments:",
    "  file              ELF file",
    "",
    "Options:",
    "  -d, --disassemble disassemble the ELF file",
    "  -b, --bios        BIOS file",
    "  --log             log filter, e.g. `emotion=debug`",
    "  --cycles          number of core cycles to run",
    "  -e, --entry       start executing at this hex address",
    "  --bus-divider     bus clock divider (default 2)",
    "  --help, help      display usage information",
    ""]

end R5900
