import TypedScript.Text.Lines
import TypedScript.Value.Reader

set_option autoImplicit false

/-!
The configuration of the journal: built-in entries, of which a document can
replace the known ones. A document that is malformed, or no mapping, changes
nothing.
-/

namespace TypedScript.Journal

def consoleHandlers : Value := .list [.str "console"]

def defaultConfiguration : Entries :=
  [(.str "version", .int 1),
   (.str "disable_existing_loggers", .bool false),
   (.str "formatters", .dict
     [(.str "standard", .dict
       [(.str "format", .str "%(asctime)s | %(levelname)-8s | %(name)s | %(message)s")])]),
   (.str "handlers", .dict
     [(.str "console", .dict
       [(.str "class", .str "logging.StreamHandler"),
        (.str "stream", .str "ext://sys.stderr"),
        (.str "formatter", .str "standard")])]),
   (.str "root", .dict [(.str "level", .str "WARNING"), (.str "handlers", consoleHandlers)]),
   (.str "loggers", .dict
     [(.str "dscript", .dict
       [(.str "level", .str "WARNING"), (.str "handlers", consoleHandlers),
        (.str "propagate", .bool false)])])]

/-- Puts in what the document says under known keys. -/
def adopt (base : Entries) : Entries → Entries
  | [] => base
  | (key, value) :: rest =>
    adopt (if (Entries.find? key base).isSome then Entries.insert key value base else base) rest

/-- The configuration under a document, which may be missing. -/
def configuration (document : ValueReader) : Option Text → Except Raised Entries
  | none => .ok defaultConfiguration
  | some t =>
    match document (Text.unifyNewlines t) with
    | .ok (.dict entries) => .ok (adopt defaultConfiguration entries)
    | .ok _ | .error (.malformed _) => .ok defaultConfiguration
    | .error (.raised e) => .error e

end TypedScript.Journal
