/-
The INI configuration (`ini.h`, `IniConfig.cpp`).

A text is the list of its bytes. The parser reads a file through a buffer of
1024 bytes and decides for each line alone what it is (`readLine`); `keep`
groups the keys by their node again and formats every line through a buffer of
512 bytes. A file to read is its text, or none where it cannot be opened; of a
file to write is known how much of each `fwrite` it takes, and how much of that
is in it once it is closed: `fclose` writes out what is buffered, and nobody
asks whether it could.
-/
import Eular.Lib.Lines
import Eular.Lib.SortedMap
import Eular.Lib.Text

namespace Eular.Config.Ini

open Lib

-- ==== texts

/-- The blanks of `trim`: " \t\r\n". -/
def isBlank (c : UInt8) : Bool := c = 0x20 || c = 0x09 || c = 0x0d || c = 0x0a

/-- `trim`: whether there is more than blanks, and the text without those at its ends. A text of
blanks stays as it is. -/
def trim (str : List UInt8) : Bool × List UInt8 :=
  if str.all isBlank then (false, str) else (true, (str.dropWhile isBlank).rdropWhile isBlank)

/-- `splitKey`: the name of the node, none for the global one, and that of the key. -/
def splitKey (fullKey : List UInt8) : List UInt8 × List UInt8 :=
  match fullKey.dropWhile (· ≠ 0x2e) with
  | [] => ([], fullKey)
  | _ :: keyName => (fullKey.takeWhile (· ≠ 0x2e), keyName)

/-- `nodeName == GLOBAL_NODE_NAME ? key : (nodeName + SEPARATOR + key)`. -/
def fullKeyOf (nodeName key : List UInt8) : List UInt8 :=
  if nodeName = [] then key else nodeName ++ 0x2e :: key

def escapeString : List UInt8 :=
  ascii "abcdefghijklmnopqrstuvwxyz_ABCDEFGHIJKLMNOPQRSTUVWXYZ0123456789"

/-- `find_first_not_of(escapeString)` finds nothing. -/
def Allowed (s : List UInt8) : Prop := ∀ c ∈ s, c ∈ escapeString

instance (s : List UInt8) : Decidable (Allowed s) := List.decidableBAll _ s

-- ==== config

abbrev Node := SortedMap (List UInt8) (List UInt8)

structure IniConfig where
  mConfigFilePath : List UInt8
  mConfigMap : SortedMap (List UInt8) (List UInt8)
  mSourceMap : SortedMap (List UInt8) Node
deriving DecidableEq

namespace IniConfig

/-- `IniConfig()`. -/
def init : IniConfig := ⟨[], .empty, .empty⟩

def value (s : IniConfig) (key : List UInt8) : List UInt8 := (s.mConfigMap.find key).getD []

end IniConfig

/-- `source[nodeName][key] = val`. -/
def putSource (source : SortedMap (List UInt8) Node) (nodeName key val : List UInt8) :
    SortedMap (List UInt8) Node :=
  source.insert nodeName (((source.find nodeName).getD .empty).insert key val)

-- ==== parser

inductive Line where
  | skip
  | node (nodeName : List UInt8)
  | entry (key val : List UInt8)
  | reject
deriving DecidableEq

/-- What stands between the first '[' and the first ']', if they come in this order. -/
def bracketed (line : List UInt8) : Option (List UInt8) :=
  match line.idxOf? 0x5b, line.idxOf? 0x5d with
  | some left, some right => if left < right then some ((line.take right).drop (left + 1)) else none
  | _, _ => none

/-- The body of the loop of `parser`, up to what it does with the line. -/
def readLine (buf : List UInt8) : Line :=
  if buf.head? = some 0x3b then .skip
  else
    match trim ((cString buf).takeWhile (· ≠ 0x3b)) with
    | (false, _) => .skip
    | (true, line) =>
      match bracketed line with
      | some inner =>
        let nodeName := (trim inner).2
        if nodeName ≠ [] ∧ ¬ Allowed nodeName then .reject else .node nodeName
      | none =>
        if 0x3d ∉ line then .reject
        else
          let key := (trim (line.takeWhile (· ≠ 0x3d))).2
          let val := (trim (line.dropWhile (· ≠ 0x3d)).tail).2
          if key = [] ∨ ¬ Allowed key then .reject else .entry key val

namespace IniConfig

/-- The loop of `parser` over the lines that are left. -/
def parserLoop (nodeName : List UInt8) (s : IniConfig) : List (List UInt8) → Bool × IniConfig
  | [] => (true, s)
  | buf :: bufs =>
    match readLine buf with
    | .skip => parserLoop nodeName s bufs
    | .node nodeName => parserLoop nodeName s bufs
    | .reject => (false, s)
    | .entry key val =>
      parserLoop nodeName
        { s with
          mConfigMap := s.mConfigMap.insert (fullKeyOf nodeName key) val
          mSourceMap := putSource s.mSourceMap nodeName key val } bufs

/-- `parser`; `fgets` reads at most 1023 bytes into `buf`. -/
def parser (_ : IniConfig) (configPath : List UInt8) (fopen : List UInt8 → Option (List UInt8)) :
    Bool × IniConfig :=
  let s : IniConfig := ⟨configPath, .empty, .empty⟩
  match fopen configPath with
  | none => (false, s)
  | some text => parserLoop [] s (lines 0x0a 1023 text)

-- ==== access

/-- `operator[]`; the reference it gives is that to the value in `mConfigMap`. -/
def subscript (s : IniConfig) (key : List UInt8) : IniConfig :=
  let (nodeName, keyName) := splitKey key
  let configMap := s.mConfigMap.emplace (fullKeyOf nodeName keyName) []
  { s with
    mConfigMap := configMap
    mSourceMap := putSource s.mSourceMap nodeName keyName
      ((configMap.find (fullKeyOf nodeName keyName)).getD []) }

/-- A write through the reference that `operator[]` gave, as long as the entry is there. -/
def write (s : IniConfig) (key val : List UInt8) : IniConfig :=
  let (nodeName, keyName) := splitKey key
  if (s.mConfigMap.find (fullKeyOf nodeName keyName)).isSome then
    { s with mConfigMap := s.mConfigMap.insert (fullKeyOf nodeName keyName) val }
  else s

def del (s : IniConfig) (key : List UInt8) : IniConfig :=
  let (nodeName, keyName) := splitKey key
  { s with
    mConfigMap := s.mConfigMap.erase (fullKeyOf nodeName keyName)
    mSourceMap :=
      match s.mSourceMap.find nodeName with
      | none => s.mSourceMap
      | some node =>
        if (node.erase keyName).entries = [] then s.mSourceMap.erase nodeName
        else s.mSourceMap.insert nodeName (node.erase keyName) }

end IniConfig

-- ==== keep

/-- `snprintf(buf, sizeof(buf), "%s = %s\n", ...)` with a buffer of 512 bytes. -/
def formatEntry (key val : List UInt8) : List UInt8 :=
  (cString key ++ ascii " = " ++ cString val ++ [0x0a]).take 511

/-- `snprintf(buf, sizeof(buf), "[%s]\n", ...)`. -/
def formatNode (nodeName : List UInt8) : List UInt8 :=
  (0x5b :: cString nodeName ++ [0x5d, 0x0a]).take 511

/-- The keys of a node, and an empty line. -/
def formatKeys (node : Node) : List UInt8 :=
  (node.entries.flatMap fun e => formatEntry e.1 e.2) ++ [0x0a]

def globalStream (source : SortedMap (List UInt8) Node) : List UInt8 :=
  (source.entries.filter fun e => e.1 = []).flatMap fun e => formatKeys e.2

def nodeStream (source : SortedMap (List UInt8) Node) : List UInt8 :=
  (source.entries.filter fun e => e.1 ≠ []).flatMap fun e => formatNode e.1 ++ formatKeys e.2

/-- The keys of `mConfigMap` by their node. -/
def regroup (configMap : SortedMap (List UInt8) (List UInt8)) : SortedMap (List UInt8) Node :=
  configMap.entries.foldl
    (fun source e => putSource source (splitKey e.1).1 (splitKey e.1).2 e.2) .empty

/-- A file that is open for writing: how many bytes the two calls of `fwrite` take, what `ferror`
says, and how many bytes there is room for when `fclose` writes the buffer out. -/
structure Sink where
  global : Nat
  node : Nat
  ferror : Bool
  close : Nat

/-- The file that `keep` opens. -/
def IniConfig.keepPath (s : IniConfig) (file : List UInt8) : List UInt8 :=
  if file = [] then s.mConfigFilePath else file

/-- `keep`: whether it was written, and what is in the file then. The answer is decided before
`fclose`, the destructor of `fp`. -/
def IniConfig.keep (s : IniConfig) (file : List UInt8) (fopen : List UInt8 → Option Sink) :
    Bool × IniConfig × List UInt8 :=
  match fopen (s.keepPath file) with
  | none => (false, s, [])
  | some fp =>
    let source := regroup s.mConfigMap
    let global := globalStream source
    let node := nodeStream source
    -- without the last line break
    let nodeText := node.take (node.length - 1)
    let globalOk := decide (global.length ≤ fp.global)
    let nodeOk := globalOk && decide (nodeText.length ≤ fp.node)
    (nodeOk && !fp.ferror, { s with mSourceMap := source },
      (global.take fp.global ++ if globalOk then nodeText.take fp.node else []).take fp.close)

-- ==== calls

/-- The calls on a configuration. -/
inductive IniOp where
  | parser (configPath : List UInt8) (fopen : List UInt8 → Option (List UInt8))
  | subscript (key : List UInt8)
  | write (key val : List UInt8)
  | del (key : List UInt8)
  | keep (file : List UInt8) (fopen : List UInt8 → Option Sink)

def IniConfig.step (s : IniConfig) : IniOp → IniConfig
  | .parser configPath fopen => (s.parser configPath fopen).2
  | .subscript key => s.subscript key
  | .write key val => s.write key val
  | .del key => s.del key
  | .keep file fopen => (s.keep file fopen).2.1

end Eular.Config.Ini
