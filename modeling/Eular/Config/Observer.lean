/-
The configuration observer (`observer.h`).

A subscription is a pattern of tokens, where `+` stands for one token and
`#`, at the end, for any number of them. Patterns are kept twice: in the
list of subscriptions, which `notifyLinear` walks, and in a trie of
subscription ids, which `notifyTrie` descends. An id that is unsubscribed
stays in both; the list marks it, and the trie's answers are looked up in
an index that no longer has it.

A callback is a name for it, and what a notification does is the list of
the calls it makes, in order. Ids are numbered by a 64-bit counter, which is
not taken to run out.
-/
import Eular.Lib.Run
import Eular.Lib.SortedMap
import Eular.Lib.Text

namespace Eular.Config

open Lib

/-- A token: what is between two dots of a path. -/
abbrev Token := List UInt8

/-- `+`, the pattern token for any one token. -/
def plus : Token := ascii "+"

/-- `#`, the pattern token for all that is left. -/
def hash : Token := ascii "#"

/-- '$', that starts every path. -/
def dollar : UInt8 := 0x24

/-- '.', that separates tokens. -/
def dot : UInt8 := 0x2e

-- ==== paths

/-- The loop of `parsePath`: tokens between dots, none of them empty.
`token` is what is read of the current one. -/
def parseBody (token : Token) : List UInt8 → Option (List Token)
  | [] => if token = [] then some [] else some [token]
  | c :: rest =>
    if c = dot then
      if token = [] then none else (parseBody [] rest).map (token :: ·)
    else parseBody (token ++ [c]) rest

def parsePath (path : List UInt8) : Option (List Token) :=
  match path with
  | [] => none
  | c :: body =>
    if c ≠ dollar then none
    else if body = [] then some []
    else if body.head? = some dot ∨ body.getLast? = some dot then none
    else parseBody [] body

/-- The check of `parsePattern`: `#` is the last token or none is. -/
def hashOnlyLast : List Token → Bool
  | [] => true
  | token :: rest => if token = hash then rest.isEmpty else hashOnlyLast rest

def parsePattern (pattern : List UInt8) : Option (List Token) :=
  match parsePath pattern with
  | none => none
  | some tokens => if hashOnlyLast tokens then some tokens else none

def matchTokens : List Token → List Token → Bool
  | [], path => path.isEmpty
  | p :: pattern, path =>
    if p = hash then pattern.isEmpty
    else
      match path with
      | [] => false
      | t :: path => if p ≠ plus ∧ p ≠ t then false else matchTokens pattern path

-- ==== trie

inductive TrieNode where
  | mk (children : List (Token × TrieNode)) (plus : Option TrieNode)
      (exactSubscriptions hashSubscriptions : List Nat)

namespace TrieNode

def empty : TrieNode := ⟨[], none, [], []⟩

def children : TrieNode → List (Token × TrieNode)
  | mk children _ _ _ => children

def plus : TrieNode → Option TrieNode
  | mk _ plus _ _ => plus

def exactSubscriptions : TrieNode → List Nat
  | mk _ _ exact _ => exact

def hashSubscriptions : TrieNode → List Nat
  | mk _ _ _ hash => hash

def findChild (node : TrieNode) (token : Token) : Option TrieNode :=
  (node.children.find? fun c => c.1 = token).map Prod.snd

end TrieNode

/-- What becomes of the children when `f` is done to the one that
`findOrCreateChild` finds or makes. -/
def changeChild (token : Token) (f : TrieNode → TrieNode) :
    List (Token × TrieNode) → List (Token × TrieNode)
  | [] => [(token, f .empty)]
  | c :: rest => if c.1 = token then (c.1, f c.2) :: rest else c :: changeChild token f rest

/-- `insertSubscription`, below a node. -/
def insertSubscription (id : Nat) : List Token → TrieNode → TrieNode
  | [], .mk children plusNode exact hashes => .mk children plusNode (exact ++ [id]) hashes
  | token :: tokens, .mk children plusNode exact hashes =>
    if token = hash then .mk children plusNode exact (hashes ++ [id])
    else if token = plus then
      .mk children (some (insertSubscription id tokens (plusNode.getD .empty))) exact hashes
    else .mk (changeChild token (insertSubscription id tokens) children) plusNode exact hashes

/-- `matchSubscriptions`, from a node on: the ids in the order they are
appended. -/
def matchSubscriptions : List Token → TrieNode → List Nat
  | [], node => node.hashSubscriptions ++ node.exactSubscriptions
  | token :: path, node =>
    node.hashSubscriptions ++
      (match node.findChild token with
        | some child => matchSubscriptions path child
        | none => []) ++
      (match node.plus with
        | some child => matchSubscriptions path child
        | none => [])

/-- `std::unique`: of equal neighbours the first. -/
def unique : List Nat → List Nat
  | a :: b :: rest => if a = b then unique (b :: rest) else a :: unique (b :: rest)
  | l => l

-- ==== observer

structure Subscription (C : Type) where
  id : Nat
  pattern : List UInt8
  tokens : List Token
  callback : C
  active : Bool := true

/-- `ConfigObserver`. Fewer than 2^64 subscriptions are taken to be made, so
that the `uint64_t` of the next id does not wrap. -/
structure ConfigObserver (C : Type) where
  subscriptions : List (Subscription C) := []
  subscriptionIndex : SortedMap Nat Nat := .empty
  root : TrieNode := .empty
  activeCount : Nat := 0
  nextId : Nat := 1

structure Call (C N : Type) where
  callback : C
  path : List UInt8
  node : N
deriving DecidableEq

namespace ConfigObserver

variable {C N : Type}

variable (s : ConfigObserver C)

/-- `subscribe`: the id, 0 for a pattern or a callback that is not taken. -/
def subscribe (pattern : List UInt8) (callback : Option C) :
    ConfigObserver C × Nat :=
  match callback, parsePattern pattern with
  | some callback, some tokens =>
    ({ subscriptions := s.subscriptions ++ [⟨s.nextId, pattern, tokens, callback, true⟩]
       subscriptionIndex := s.subscriptionIndex.insert s.nextId s.subscriptions.length
       root := insertSubscription s.nextId tokens s.root
       activeCount := s.activeCount + 1
       nextId := s.nextId + 1 }, s.nextId)
  | _, _ => (s, 0)

def unsubscribe (id : Nat) : ConfigObserver C × Bool :=
  if id = 0 then (s, false)
  else
    match s.subscriptionIndex.find id with
    | none => (s, false)
    | some i =>
      ({ s with
          subscriptions := s.subscriptions.modify i fun x => { x with active := false }
          subscriptionIndex := s.subscriptionIndex.erase id
          activeCount := if 0 < s.activeCount then s.activeCount - 1 else s.activeCount }, true)

def clear : ConfigObserver C :=
  { s with subscriptions := [], subscriptionIndex := .empty, root := .empty, activeCount := 0 }

def trieThreshold : Nat := 16

/-- The subscriptions the linear loops call, in order. -/
def linearMatches (pathTokens : List Token) : List (Subscription C) :=
  s.subscriptions.filter fun x => x.active && matchTokens x.tokens pathTokens

/-- The subscriptions the trie loops call, in order. -/
def trieMatches (pathTokens : List Token) : List (Subscription C) :=
  let matchedIds := matchSubscriptions pathTokens s.root
  (unique (matchedIds.mergeSort (· ≤ ·))).filterMap fun id =>
    (s.subscriptionIndex.find id).bind fun i =>
      s.subscriptions[i]?.filter fun x => x.active

variable (getNode : List UInt8 → N) (valid : N → Bool)

/-- The calls of `notifyLinear` and of `notifyTrie`: the node is looked up
for the first of them, and without a valid node there are none. -/
def callsAt (path : List UInt8) :
    List (Subscription C) → List (Call C N)
  | [] => []
  | x :: rest =>
    let node := getNode path
    if !valid node then [] else (x :: rest).map fun x => ⟨x.callback, path, node⟩

def notifyLinear (path : List UInt8) (pathTokens : List Token) : List (Call C N) :=
  callsAt getNode valid path (s.linearMatches pathTokens)

def notifyTrie (path : List UInt8) (pathTokens : List Token) : List (Call C N) :=
  callsAt getNode valid path (s.trieMatches pathTokens)

def notifyPreparedNodeLinear (path : List UInt8) (pathTokens : List Token)
    (node : N) : List (Call C N) :=
  (s.linearMatches pathTokens).map fun x => ⟨x.callback, path, node⟩

def notifyPreparedNodeTrie (path : List UInt8) (pathTokens : List Token)
    (node : N) : List (Call C N) :=
  (s.trieMatches pathTokens).map fun x => ⟨x.callback, path, node⟩

/-- `notify(parser, path)`. -/
def notify (path : List UInt8) : List (Call C N) :=
  match parsePath path with
  | none => []
  | some pathTokens =>
    if s.activeCount ≤ trieThreshold then s.notifyLinear getNode valid path pathTokens
    else s.notifyTrie getNode valid path pathTokens

def notifyPreparedNode (path : List UInt8)
    (pathTokens : List Token) (node : N) : List (Call C N) :=
  if !valid node then []
  else if s.activeCount ≤ trieThreshold then s.notifyPreparedNodeLinear path pathTokens node
  else s.notifyPreparedNodeTrie path pathTokens node

/-- `notify(parser)`, over the nodes the parser visits with their paths and
tokens. -/
def notifyAll (nodes : List (List UInt8 × List Token × N)) : List (Call C N) :=
  nodes.flatMap fun n => s.notifyPreparedNode valid n.1 n.2.1 n.2.2

end ConfigObserver

/-- The calls that change an observer. -/
inductive ObserverOp (C : Type) where
  | subscribe (pattern : List UInt8) (callback : Option C)
  | unsubscribe (id : Nat)
  | clear

namespace ConfigObserver

def step {C : Type} (s : ConfigObserver C) : ObserverOp C → ConfigObserver C
  | .subscribe pattern callback => (s.subscribe pattern callback).1
  | .unsubscribe id => (s.unsubscribe id).1
  | .clear => s.clear

end ConfigObserver

end Eular.Config
