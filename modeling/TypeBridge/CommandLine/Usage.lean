import TypeBridge.Text.Basic

/-!
The texts that explain the command line.
-/

namespace TypeBridge

/-- Lines, each ended by a line feed. -/
def unlines (lines : List Text) : Text := lines.flatMap fun line => line ++ ['\n']

/-- How the program is called. -/
def usageText : Text := unlines <|
  ["usage: typegen [-h] [--top-level] [--structural] [--raw] [--primitive RUST=TS]",
   "               [--json] [--kind KIND] [--name NAME] [-v]",
   "               TYPE [TYPE ...]"].map String.toList

/-- The answer to a request for help. -/
def helpText : Text := usageText ++ unlines (
  ["",
   "Translate Rust type signatures into TypeScript types",
   "",
   "positional arguments:",
   "  TYPE                 Rust type expression",
   "",
   "options:",
   "  -h, --help           show this help message and exit",
   "  --top-level          Treat each type as a whole return type (drop a top-",
   "                       level Result's error union)",
   "  --structural         Recognize wrappers from parsed generic arguments",
   "  --raw                Translate the text as printed, without parsing it first",
   "  --primitive RUST=TS  Extra scalar mapping, e.g. f64=number (repeatable)",
   "  --json               Print TypeDef JSON records",
   "  --kind KIND          TypeDef kind (default: type)",
   "  --name NAME          TypeDef name (default: the input text)",
   "  -v, --verbose        Enable debug logging",
   "",
   "Command-line entry point for typegen.",
   "",
   "Usage:",
   "    typegen TYPE [TYPE ...] [--top-level] [--structural] [--json]",
   "",
   "Examples:",
   "    typegen \"Option<Vec<u32>>\"",
   "    typegen \"Result<String, io::Error>\" --top-level",
   "    typegen \"& 'a str\" --raw",
   "    typegen \"HashMap<String, (u8, u8)>\" --structural --json --kind struct --name Pairs"].map
  String.toList)

end TypeBridge
