/-
A queue with the room behind it.

What is in the queue, and what lies in the free places behind it: the holder
of the queue may store there before the queue takes it in (`store`, `push`),
and what is popped leaves its places at the end of the room. Of all this the
contents see only what is pushed and popped, first in first out.
-/
import Mathlib

namespace Eular.Lib

/-- The contents from front to back, and the free places in their order. -/
structure RoomyQueue (α : Type*) where
  contents : List α
  room : List α

namespace RoomyQueue

variable {α : Type*}

/-- The places, taken or free. -/
def capacity (q : RoomyQueue α) : Nat := q.contents.length + q.room.length

/-- The first `n` places of the room are taken in, or all of it. -/
def push (q : RoomyQueue α) (n : Nat) : RoomyQueue α :=
  ⟨q.contents ++ q.room.take n, q.room.drop n⟩

/-- The first `n` leave, and their places are the last of the room. -/
def pop (q : RoomyQueue α) (n : Nat) : RoomyQueue α :=
  ⟨q.contents.drop n, q.room ++ q.contents.take n⟩

/-- `x` is stored in a free place. -/
def store (q : RoomyQueue α) (i : Nat) (x : α) : RoomyQueue α :=
  { q with room := q.room.set i x }

/-- `xs` stored from the first place on. -/
def fill (q : RoomyQueue α) (xs : List α) : RoomyQueue α :=
  { q with room := xs ++ q.room.drop xs.length }

end RoomyQueue

end Eular.Lib
