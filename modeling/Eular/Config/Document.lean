/-
The path maps of a configuration (`json.cpp` and `yaml.cpp`).

Both loaders walk the document with a stack of frames, a node and the path
it is reached by, and keep for every path the first node that gets it. They
push the children of a node in opposite orders, treat empty keys
differently, and only one of them can fail, at a key that is no text.

A document is its tree, as yyjson and libyaml build it. Every node has an
id, for what the loaders hold is nodes, not their contents; where a YAML
document refers to a node in several places, it is in all of them. Neither
library makes a mapping or a sequence of more than `INT_MAX` items.
-/
import Eular.Config.Observer

namespace Eular.Config

open Lib

abbrev Path := List UInt8

/-- A node and what is below it. A key is a text or, in YAML, some other
node. -/
inductive Doc where
  | scalar (id : Nat)
  | sequence (id : Nat) (items : List Doc)
  | mapping (id : Nat) (pairs : List (Option (List UInt8) × Doc))

namespace Doc

def id : Doc → Nat
  | scalar id => id
  | sequence id _ => id
  | mapping id _ => id

/-- The nodes a node holds, whatever their keys. -/
def children : Doc → List Doc
  | scalar _ => []
  | sequence _ items => items
  | mapping _ pairs => pairs.map Prod.snd

end Doc

mutual

/-- How many nodes there are, one for every place. -/
def Doc.count : Doc → Nat
  | .scalar _ => 1
  | .sequence _ items => countItems items + 1
  | .mapping _ pairs => countPairs pairs + 1

def countItems : List Doc → Nat
  | [] => 0
  | item :: items => item.count + countItems items

def countPairs : List (Option (List UInt8) × Doc) → Nat
  | [] => 0
  | pair :: pairs => countPair pair + countPairs pairs

def countPair : Option (List UInt8) × Doc → Nat
  | (_, value) => value.count

end

structure Frame where
  node : Doc
  path : Path

-- ==== paths

/-- '$'. -/
def rootPath : Path := [dollar]

def joinKey (base key : List UInt8) : Path :=
  if base = [] then key
  else if base.length = 1 then base ++ key
  else base ++ dot :: key

/-- The path of an item of a sequence. -/
def joinIndex (base : Path) (idx : Nat) : Path :=
  base ++ ascii "[" ++ decimal idx ++ ascii "]"

/-- The loop of `TokenizePath` over what is left of the path, for at most
`fuel` rounds. -/
def tokenizeLoop : Nat → List UInt8 → List Token
  | 0, _ => []
  | fuel + 1, rest =>
    if rest = [] then []
    else
      let token := rest.takeWhile (· ≠ dot)
      let behind := rest.drop (token.length + 1)
      if token = [] then tokenizeLoop fuel behind else token :: tokenizeLoop fuel behind

def tokenizePath (path : Path) : List Token :=
  if path.head? ≠ some dollar ∨ path.length = 1 then [] else tokenizeLoop path.length (path.drop 1)

-- ==== maps

/-- The two maps of a loader: `pathNodeMap` or `pathIdMap`, and
`pathTokensMap`. -/
structure PathMap where
  pathNodeMap : SortedMap Path Doc := .empty
  pathTokensMap : SortedMap Path (List Token) := .empty

namespace PathMap

/-- What a frame leaves in the maps. -/
def emplace (m : PathMap) (f : Frame) : PathMap :=
  if f.path = [] then m
  else
    { pathNodeMap := m.pathNodeMap.emplace f.path f.node
      pathTokensMap := m.pathTokensMap.emplace f.path (tokenizePath f.path) }

/-- `getNode`, where nothing is an invalid node. -/
def getNode (m : PathMap) (path : Path) : Option Doc := m.pathNodeMap.find path

/-- What `foreachNode` hands to its visitor. -/
def foreachNode (m : PathMap) : List (Path × List Token × Option Doc) :=
  m.pathNodeMap.entries.filterMap fun e =>
    (m.pathTokensMap.find e.1).map fun tokens => (e.1, tokens, some e.2)

end PathMap

-- ==== loaders

/-- The items of a sequence, with their paths. -/
def itemFrames (path : Path) (items : List Doc) : List Frame :=
  items.zipIdx.map fun item => ⟨item.1, joinIndex path item.2⟩

/-- The frames `JsonParser::buildMap` pushes for a node, in the order it
does. -/
def jsonPushes (f : Frame) : List Frame :=
  match f.node with
  | .scalar _ => []
  | .sequence _ items => itemFrames f.path items
  | .mapping _ pairs =>
    pairs.filterMap fun pair =>
      match pair.1 with
      | none => none
      | some key => if key = [] then none else some ⟨pair.2, joinKey f.path key⟩

/-- The frames `YamlParser::buildMap` pushes for a node, the last pushed
first, or its error. -/
def yamlPushes (f : Frame) : Option (List Frame) :=
  match f.node with
  | .scalar _ => some []
  | .sequence _ items => some (itemFrames f.path items)
  | .mapping _ pairs =>
    pairs.mapM fun pair => pair.1.map fun key => ⟨pair.2, joinKey f.path key⟩

/-- What the next rounds of the loop take, in order: `none` for an error. -/
def jsonNext (f : Frame) : Option (List Frame) := some (jsonPushes f).reverse

def yamlNext (f : Frame) : Option (List Frame) := yamlPushes f

/-- The loop of `buildMap`, with the top of its stack in front, for at most
`fuel` rounds. -/
def buildLoop (next : Frame → Option (List Frame)) : Nat → List Frame → PathMap → Option PathMap
  | _, [], m => some m
  | 0, _ :: _, _ => none
  | fuel + 1, f :: stack, m =>
    match next f with
    | none => none
    | some frames => buildLoop next fuel (frames ++ stack) (m.emplace f)

inductive Loader where
  | json
  | yaml
deriving DecidableEq

namespace Loader

def next : Loader → Frame → Option (List Frame)
  | json => jsonNext
  | yaml => yamlNext

/-- `buildMap`: there is a round for every node and no more. -/
def buildMap (loader : Loader) (doc : Doc) : Option PathMap :=
  buildLoop loader.next doc.count [⟨doc, rootPath⟩] {}

end Loader

end Eular.Config
