/-!
# Help

The texts that the command prints about itself.
-/

namespace TwoPass.Command

def version : String := "1.0.0"

def versionText : String :=
  "manoasm, version " ++ version

def usageText : String :=
  "Usage: manoasm [OPTIONS] INPUT_FILE"

/-- Where to find help, for those who used the command in a wrong way. -/
def reminderText : String :=
  usageText ++ "\nTry 'manoasm --help' for help.\n"

def helpText : String :=
  "\n".intercalate
    [usageText,
     "",
     "  Assemble basic computer source code.",
     "",
     "  INPUT_FILE is the assembly source file to assemble. Each line has the form",
     "  [LABEL] OPCODE [OPERAND] [I]; ';' and '/' start comments.",
     "",
     "  Examples:",
     "      manoasm prog.asm              # Outputs prog.obj",
     "      manoasm prog.asm -o out.obj   # Specify output file",
     "      manoasm -p prog.asm           # Print words to stdout",
     "",
     "Options:",
     "  -o, --output FILE               Output object file (default: input.obj)",
     "  -l, --listing FILE              Generate listing file",
     "  -s, --symbols FILE              Generate symbol file",
     "  -p, --print                     Print the emitted words to stdout instead of",
     "                                  writing an object file",
     "  --strict-symbols / --lenient-symbols",
     "                                  Fail on undefined symbols instead of",
     "                                  encoding address 0. Default: lenient, or",
     "                                  MANO_ASM_STRICT_SYMBOLS.",
     "  --allow-redefinition / --no-allow-redefinition",
     "                                  Let a repeated label re-bind to its later",
     "                                  address (with a warning). Default: off, or",
     "                                  MANO_ASM_ALLOW_REDEFINITION.",
     "  -v, --verbose                   Verbose output",
     "  --version                       Show the version and exit.",
     "  --help                          Show this message and exit."]

end TwoPass.Command
