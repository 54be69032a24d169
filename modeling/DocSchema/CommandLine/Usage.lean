import DocSchema.Schema.Catalog

/-!
What the command line says about itself.
-/

namespace DocSchema.CommandLine

def programName : String := "typegraph-validate"

/-- The synopsis. -/
def usage : String :=
  "usage: typegraph-validate [-h] [--version] [-v] [--type NAME]\n" ++
  "                          [--format \x7btext,markdown\x7d]\n" ++
  "                          JSON SCHEMA\n"

/-- The full help. -/
def help : String :=
  usage ++
  "\nValidate a JSON document against a compiled type-graph schema.\n" ++
  "\npositional arguments:\n" ++
  "  JSON                  JSON literal or path to a JSON file.\n" ++
  "  SCHEMA                Path to a compiled schema (JSON).\n" ++
  "\noptions:\n" ++
  "  -h, --help            Show this help message and exit.\n" ++
  "  --version             Print the supported schema-specification version and\n" ++
  "                        exit.\n" ++
  "  -v, --verbose         Log debug output to stderr.\n" ++
  "  --type NAME           Root type to validate against (default: the schema's\n" ++
  "                        root).\n" ++
  "  --format \x7btext,markdown\x7d\n" ++
  "                        How to print diagnostics.\n"

def versionLine : String := s!"typegraph schema specification : {supportedVersion}\n"

/-- The message for a misuse. -/
def misuse (reason : String) : String := usage ++ s!"{programName}: error: {reason}\n"

end DocSchema.CommandLine
