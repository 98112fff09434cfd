import Mender.Batch.Basic
import Mender.Json.Printer

/-! Batches and requests as values. On the wire, files are the names of an object's members, so they
are put into the order that those have; a member cannot be named `__proto__`, and a file of that name
is left out. -/

namespace Mender

/-- The name that no member of a plain object can be given. -/
def reservedName : String := "__proto__"

/-- A text that is left out when it is missing or empty. -/
def Json.ofNonEmpty (text? : Option String) : Json := Json.ofOption .text (text?.filter (· != ""))

namespace Diagnostic

def toWire (d : Diagnostic) : Json :=
  .object
    [("message", .text d.message), ("file", .text d.file), ("line", .number d.line),
      ("error_type", .text d.category.name), ("error_code", .ofNonEmpty d.code),
      ("suggestion", .ofNonEmpty d.suggestion)]

/-- The members of a diagnostic, in the order in which a report's are made. -/
def members (d : Diagnostic) : List (String × Json) :=
  [("message", .text d.message), ("file", .text d.file), ("line", .number d.line),
    ("category", .text d.category.name), ("code", .ofOption .text d.code),
    ("suggestion", .ofOption .text d.suggestion)]

def toJson (d : Diagnostic) : Json := .object d.members

end Diagnostic

namespace BatchInfo

def members (i : BatchInfo) : List (String × Json) :=
  [("index", .number i.index), ("totalCount", .number i.totalCount), ("size", .number i.size),
    ("hasMore", .bool i.hasMore)]

def toJson (i : BatchInfo) : Json := .object i.members

def toWire (i : BatchInfo) : Json :=
  .object
    [("index", .number i.index), ("total_errors", .number i.totalCount),
      ("batch_size", .number i.size), ("has_more", .bool i.hasMore)]

end BatchInfo

namespace Batch

/-- The groups of a batch on the wire, in the order of their members. -/
def wireGroups (b : Batch) : List (String × List Json) :=
  Json.inOrder ((b.groups.filter (·.1 != reservedName)).map fun (file, ds) => (file, ds.map (·.toWire)))

def toWire (b : Batch) : Json :=
  .object
    [("batch", b.info.toWire),
      ("errors_by_file", .object (b.wireGroups.map fun (file, ds) => (file, .list ds)))]

end Batch

/-- A batch as it is sent to the oracle, with the contents of the files it names. -/
structure Request where
  info : BatchInfo
  errors : Groups
  contents : List (String × String)
  projectPath : String
  deriving DecidableEq

namespace Request

def kind : String := "phpstan_errors"

/-- Contents set one after the other, a file's last ones counting. -/
def contentsOf (pairs : List (String × String)) : List (String × String) :=
  Json.putAll (pairs.filter (·.1 != reservedName))

def ofBatch (b : Batch) (contents : List (String × String)) (projectPath : String) : Request :=
  ⟨b.info, b.groups, contents, projectPath⟩

def toBatch (r : Request) : Batch := ⟨r.info, r.errors⟩

/-- How records inside a request are laid out in the log. -/
structure Layout where
  info : BatchInfo → Json
  diagnostic : Diagnostic → Json

/-- Members in the order in which a session makes them. -/
def Layout.made : Layout := ⟨BatchInfo.toJson, Diagnostic.toJson⟩

def Layout.sorted : Layout :=
  ⟨fun i => .object (Json.byName i.members), fun d => .object (Json.byName d.members)⟩

def toJson (layout : Layout) (r : Request) : Json :=
  .object
    [("type", .text kind), ("batchInfo", layout.info r.info),
      ("errors", .object (Json.inOrder (r.errors.map fun (file, ds) =>
        (file, Json.list (ds.map layout.diagnostic))))),
      ("fileContents", .object (Json.inOrder (r.contents.map fun (file, text) =>
        (file, Json.text text)))),
      ("projectPath", .text r.projectPath)]

end Request
end Mender
