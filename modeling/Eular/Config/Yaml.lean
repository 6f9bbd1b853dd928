/-
Loading a YAML document (`yaml.cpp`), as the graph libyaml makes of it.

In `Document.lean` a document is its tree; here it is what the loader is
given, nodes that hold one another by number, so that an alias is the number
of a node that is also elsewhere, above it perhaps. libyaml itself, the
allocator and what they answer are in `Libyaml`. The loop of `buildMap` gets
a number of rounds: nothing in it says how many it takes.
-/
import Eular.Config.Document

namespace Eular.Config.Yaml

open Lib

-- ==== document

/-- `yaml_node_t`. -/
inductive Node where
  | scalar (value : List UInt8)
  | sequence (items : List Nat)
  | mapping (pairs : List (Nat × Nat))
deriving DecidableEq

/-- `yaml_document_t`; the first node has the number one. -/
structure Document where
  nodes : List Node
deriving DecidableEq

namespace Document

/-- `yaml_document_get_node`. -/
def getNode (document : Document) (id : Nat) : Option Node :=
  if id = 0 then none else document.nodes[id - 1]?

/-- `yaml_document_get_root_node`, as `rootId`. -/
def rootId (document : Document) : Option Nat := if document.nodes = [] then none else some 1

/-- The text of a key, if it is a scalar. -/
def keyText (document : Document) (key : Nat) : Option (List UInt8) :=
  match document.getNode key with
  | some (.scalar value) => some value
  | _ => none

end Document

structure Frame where
  id : Nat
  path : Path
deriving DecidableEq

-- ==== results

inductive ConfigCode where
  | ok
  | invalidArgument
  | notFound
  | fileOpError
  | fileEmpty
  | initError
  | noMemory
  | parseError
  | unsupported
deriving DecidableEq, Repr

structure ConfigResult where
  code : ConfigCode := .ok
  message : List UInt8 := ascii "OK"
deriving DecidableEq

-- ==== snapshot

structure YamlParserPrivate where
  document : Document := ⟨[]⟩
  initialized : Bool := false
  pathIdMap : SortedMap Path Nat := .empty
  pathTokensMap : SortedMap Path (List Token) := .empty

namespace YamlParserPrivate

/-- What a frame leaves in the maps. -/
def emplace (snapshot : YamlParserPrivate) (current : Frame) : YamlParserPrivate :=
  if current.path = [] then snapshot
  else
    { snapshot with
      pathIdMap := snapshot.pathIdMap.emplace current.path current.id
      pathTokensMap := snapshot.pathTokensMap.emplace current.path (tokenizePath current.path) }

/-- The frames that are pushed for a node, the last pushed first; none where a key is no scalar. -/
def pushes (document : Document) (current : Frame) : Node → Option (List Frame)
  | .scalar _ => some []
  | .sequence items => some (items.zipIdx.map fun item => ⟨item.1, joinIndex current.path item.2⟩)
  | .mapping pairs =>
    pairs.mapM fun pair => (document.keyText pair.1).map fun key =>
      ⟨pair.2, joinKey current.path key⟩

def complexKey (path : Path) : ConfigResult :=
  ⟨.unsupported, ascii "unsupported complex key in mapping node: " ++ path⟩

/-- The loop of `buildMap`, with the top of `frames` in front, for at most `fuel` rounds. -/
def buildMapLoop : Nat → List Frame → YamlParserPrivate → Option (ConfigResult × YamlParserPrivate)
  | _, [], snapshot => some ({}, snapshot)
  | 0, _ :: _, _ => none
  | fuel + 1, current :: frames, snapshot =>
    match snapshot.document.getNode current.id with
    | none => buildMapLoop fuel frames snapshot
    | some currentNode =>
      match pushes snapshot.document current currentNode with
      | none =>
        some (complexKey current.path, { snapshot.emplace current with pathIdMap := .empty })
      | some pushed => buildMapLoop fuel (pushed ++ frames) (snapshot.emplace current)

def buildMap (fuel : Nat) (snapshot : YamlParserPrivate) :
    Option (ConfigResult × YamlParserPrivate) :=
  let cleared := { snapshot with pathIdMap := .empty, pathTokensMap := .empty }
  match snapshot.document.rootId with
  | none => some ({}, cleared)
  | some rootId => buildMapLoop fuel [⟨rootId, rootPath⟩] cleared

end YamlParserPrivate

-- ==== parser

/-- What libyaml and the allocator answer. -/
structure Libyaml where
  /-- why there is no memory, if there is none -/
  allocate : Option (List UInt8)
  /-- `yaml_parser_initialize` -/
  initialized : Bool
  /-- `yaml_parser_load`: the document, or `problem` and `error` -/
  load : List UInt8 → Except (Option (List UInt8) × Nat) Document

structure YamlParser where
  m_private : Option YamlParserPrivate := some {}

namespace YamlParser

/-- `size`, and `strlen` where it is `UINT32_MAX`. -/
def contentSize (yamlContent : List UInt8) (size : UInt32) : UInt32 :=
  if size.toNat = 2 ^ 32 - 1 then UInt32.ofNat (yamlContent.takeWhile (· ≠ 0)).length else size

/-- `loadFromStringInternal`, with so many rounds for the loop of `buildMap`. -/
def loadFromStringInternal (parser : YamlParser) (libyaml : Libyaml) (fuel : Nat)
    (yamlContent : Option (List UInt8)) (size : UInt32) : Option (ConfigResult × YamlParser) :=
  match yamlContent with
  | none => some (⟨.invalidArgument, ascii "yamlContent is null or size is zero"⟩, parser)
  | some yamlContent =>
    if size = 0 then
      some (⟨.invalidArgument, ascii "yamlContent is null or size is zero"⟩, parser)
    else
      match libyaml.allocate with
      | some what =>
        some (⟨.noMemory, ascii "failed to allocate memory for YamlParserPrivate: " ++ what⟩,
          parser)
      | none =>
        if libyaml.initialized = false then
          some (⟨.initError, ascii "failed to initialize yaml parser"⟩, parser)
        else
          match libyaml.load (yamlContent.take (contentSize yamlContent size).toNat) with
          | .error (problem, error) =>
            some (⟨.parseError, ascii "failed to parse yaml content: "
              ++ problem.getD (decimal error)⟩, parser)
          | .ok document =>
            match YamlParserPrivate.buildMap fuel { document } with
            | none => none
            | some (result, nextSnapshot) =>
              if result.code ≠ .ok then some (result, parser)
              else some (result, ⟨some { nextSnapshot with initialized := true }⟩)

/-- `getNode`: the number of the node, with the document it is in. -/
def getNode (parser : YamlParser) (key : Path) : Option (Document × Nat) :=
  match parser.m_private with
  | none => none
  | some snapshot =>
    if snapshot.initialized = false then none
    else
      match snapshot.pathIdMap.find key with
      | none => none
      | some id =>
        if (snapshot.document.getNode id).isSome then some (snapshot.document, id) else none

end YamlParser

end Eular.Config.Yaml
