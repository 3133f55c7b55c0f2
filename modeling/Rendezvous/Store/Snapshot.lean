import Rendezvous.Store.Basic
import Rendezvous.Json.Printer
import Rendezvous.Text.FilePath

/-!
# Snapshots

A snapshot lists the nodes of a store as plain data: names of meta-types, attributes that may also be
numbers or truth values, and pointers that may be unset.  Loading a snapshot turns every attribute
into text and leaves out empty parents and unset or empty pointers; it fails at the first node whose
path repeats an earlier one.  Capturing a store keeps everything, attributes as text.

As a document, a snapshot is an object with the field `nodes`.  Fields with the value they would have
when missing are not written.  Reading skips fields it does not know without looking at their values,
refuses a known field that repeats, and also takes the fields of a snapshot or a node as an array in
their order.
-/

namespace Rendezvous

open Json

/-- The value of an attribute. -/
inductive AttributeValue where
  | text (s : String)
  | integer (z : Int64)
  | boolean (b : Bool)
  deriving DecidableEq, Inhabited

/-- An attribute as text. -/
def AttributeValue.toText : AttributeValue → String
  | text s => s
  | integer z => toString z.toInt
  | boolean b => if b then "true" else "false"

/-- A node as plain data. -/
structure NodeSnapshot where
  path : String
  metaName : String
  isMetaNode : Bool
  parent : Option String
  attributes : Table String AttributeValue
  /-- The targets of pointers; an unset pointer has none. -/
  pointers : Table String (Option String)
  deriving DecidableEq, Inhabited

/-- The nodes of a store as plain data. -/
structure Snapshot where
  nodes : List NodeSnapshot
  deriving DecidableEq, Inhabited

/-- Why a snapshot cannot be read or loaded. -/
inductive SnapshotError where
  /-- The text is no JSON document of the right shape. -/
  | json
  /-- The file cannot be read. -/
  | unreadable
  /-- The first path that repeats an earlier one. -/
  | duplicatePath (path : String)
  /-- A file of an unknown kind. -/
  | unsupportedFormat (extension : String)
  deriving DecidableEq, Repr, Inhabited

/-- The message of an error of the snapshot itself.  The wording of reading errors is not ours. -/
def SnapshotError.message? : SnapshotError → Option String
  | json | unreadable => none
  | duplicatePath path => some ("Duplicate node path: " ++ path)
  | unsupportedFormat extension => some ("Unsupported snapshot format: " ++ extension)

/-! ## Loading and capturing -/

/-- A text that is not empty. -/
def nonEmpty? (s : Option String) : Option String :=
  s.filter fun t => t ≠ ""

/-- The node that a snapshot of a node describes. -/
def NodeSnapshot.toNode (n : NodeSnapshot) : Node where
  metaType := .ofName n.metaName
  isMetaNode := n.isMetaNode
  parent := nonEmpty? n.parent
  attributes := n.attributes.mapValues AttributeValue.toText
  pointers := .ofList (n.pointers.entries.filterMap fun e => (nonEmpty? e.2).map fun t => (e.1, t))

/-- The snapshot of a node. -/
def NodeSnapshot.ofNode (path : Path) (n : Node) : NodeSnapshot where
  path := path
  metaName := n.metaType.name
  isMetaNode := n.isMetaNode
  parent := n.parent
  attributes := n.attributes.mapValues .text
  pointers := n.pointers.mapValues some

/-- Loads a node under a path that is not taken. -/
def Store.load (s : Store) (n : NodeSnapshot) : Except SnapshotError Store :=
  if s.contains n.path then .error (.duplicatePath n.path) else .ok (s.add n.path n.toNode)

/-- Loads a snapshot. -/
def Store.ofSnapshot (snapshot : Snapshot) : Except SnapshotError Store :=
  snapshot.nodes.foldlM Store.load .empty

/-- Captures a store. -/
def Store.capture (s : Store) : Snapshot :=
  ⟨s.loaded.entries.map fun e => .ofNode e.1 e.2⟩

/-! ## Writing documents -/

/-- The value of an attribute in a document. -/
def AttributeValue.toValue : AttributeValue → Value
  | text s => .text s
  | integer z => .number (.integer z.toInt)
  | boolean b => .bool b

/-- The target of a pointer in a document. -/
def targetValue : Option String → Value
  | some t => .text t
  | none => .null

/-- A table as an object, if it has entries. -/
def tableField {ν : Type} (key : String) (toValue : ν → Value) (t : Table String ν) :
    List (String × Value) :=
  if t.isEmpty then [] else [(key, .object (t.entries.map fun e => (e.1, toValue e.2)))]

namespace NodeSnapshot

/-- The document of a node. -/
def toValue (n : NodeSnapshot) : Value :=
  .object ([("path", .text n.path), ("meta", .text n.metaName)]
    ++ (if n.isMetaNode then [("metaNode", .bool true)] else [])
    ++ (n.parent.map fun p => ("parent", Value.text p)).toList
    ++ tableField "attributes" AttributeValue.toValue n.attributes
    ++ tableField "pointers" targetValue n.pointers)

end NodeSnapshot

namespace Snapshot

/-- The document of a snapshot as a value. -/
def toValue (s : Snapshot) : Value :=
  .object [("nodes", .array (s.nodes.map NodeSnapshot.toValue))]

/-- The document of a snapshot. -/
def document (s : Snapshot) : String :=
  pretty s.toValue

end Snapshot

/-! ## Reading documents -/

/-- The fields of an object by key, if no known key repeats.  The values of other fields are dropped,
but their keys have to be texts. -/
def knownFields? (known : List String) (fields : List (List Piece × Tree)) :
    Option (Table String Tree) :=
  fields.foldlM (fun (t : Table String Tree) f =>
    (textOf? f.1).bind fun key =>
      if known.contains key then if t.contains key then none else some (t.insert key f.2)
      else some t) .empty

/-- The fields of an array, which stand in the order of the known keys. -/
def positionalFields? (known : List String) (items : List Tree) : Option (Table String Tree) :=
  if items.length ≤ known.length then some (.ofList (known.zip items)) else none

/-- The fields of a record, written as an object or as an array. -/
def recordFields? (known : List String) : Tree → Option (Table String Tree)
  | .object fields => knownFields? known fields
  | .array items => positionalFields? known items
  | _ => none

/-- Reads a text. -/
def text? : Tree → Option String
  | .string pieces => textOf? pieces
  | _ => none

/-- Reads a truth value. -/
def bool? : Tree → Option Bool
  | .bool b => some b
  | _ => none

/-- Reads a text or its absence. -/
def optionalText? : Tree → Option (Option String)
  | .null => some none
  | t => (text? t).map some

/-- Reads the value of an attribute. -/
def AttributeValue.read? : Tree → Option AttributeValue
  | .string pieces => (textOf? pieces).map .text
  | .bool b => some (.boolean b)
  | .number chars =>
    match Number.read? chars with
    | some (.integer z) =>
      if Int64.minValue.toInt ≤ z ∧ z ≤ Int64.maxValue.toInt then some (.integer (Int64.ofInt z))
      else none
    | _ => none
  | _ => none

/-- Reads an object as a table: a repeated key keeps its first position and takes its last value. -/
def table? {ν : Type} (read? : Tree → Option ν) : Tree → Option (Table String ν)
  | .object fields =>
    fields.foldlM (fun (t : Table String ν) f =>
      (textOf? f.1).bind fun key => (read? f.2).map fun v => t.insert key v) .empty
  | _ => none

/-- Reads a field that may be missing. -/
def fieldOr? {ν : Type} (fields : Table String Tree) (key : String) (default : ν)
    (read? : Tree → Option ν) : Option ν :=
  match fields.get? key with
  | none => some default
  | some t => read? t

/-- Reads a field that has to be there. -/
def field? {ν : Type} (fields : Table String Tree) (key : String) (read? : Tree → Option ν) :
    Option ν :=
  (fields.get? key).bind read?

namespace NodeSnapshot

/-- The fields of a node, in their order. -/
def keys : List String :=
  ["path", "meta", "metaNode", "parent", "attributes", "pointers"]

/-- Reads a node. -/
def read? (t : Tree) : Option NodeSnapshot := do
  let fields ← recordFields? keys t
  let path ← field? fields "path" text?
  let metaName ← field? fields "meta" text?
  let isMetaNode ← fieldOr? fields "metaNode" false bool?
  let parent ← fieldOr? fields "parent" none optionalText?
  let attributes ← fieldOr? fields "attributes" .empty (table? AttributeValue.read?)
  let pointers ← fieldOr? fields "pointers" .empty (table? optionalText?)
  return ⟨path, metaName, isMetaNode, parent, attributes, pointers⟩

end NodeSnapshot

namespace Snapshot

/-- Reads a list of nodes. -/
def nodes? : Tree → Option (List NodeSnapshot)
  | .array items => items.mapM NodeSnapshot.read?
  | _ => none

/-- Reads a snapshot. -/
def ofTree? (t : Tree) : Option Snapshot := do
  let fields ← recordFields? ["nodes"] t
  let nodes ← fieldOr? fields "nodes" [] nodes?
  return ⟨nodes⟩

/-- The snapshot that a document describes. -/
def read (source : Text.Decoded) : Except SnapshotError Snapshot :=
  match (tree? source).bind ofTree? with
  | some s => .ok s
  | none => .error .json

/-- Reads a file by its name and its contents, which a file that cannot be read lacks. -/
def ofFile (name : String) (contents : Option Text.Decoded) : Except SnapshotError Snapshot :=
  match contents with
  | none => .error .unreadable
  | some source =>
    let extension := Text.lowerExtension name
    if extension = "json" then read source else .error (.unsupportedFormat extension)

end Snapshot

end Rendezvous
