/-
Authenticated encryption with associated data.

An `Aead` is what a program sees of a cipher such as AES-GCM: `encrypt`
adds a tag to the ciphertext of a message, `decrypt` gives the message
back under the same key, nonce and associated data.

# Authenticity

That nothing else is accepted cannot be stated for all messages at once:
there are more messages than tags, so some ciphertext opens under two
nonces. `Authentic` says it of one sealed message, which is how a proof
about one packet uses it. `oneTimeAead` is a cipher, with a tag that
singles out one given message, for which that holds.
-/
import Mathlib

namespace Eular.Lib

/-- A cipher with tags of `tagSize` bytes. -/
structure Aead where
  tagSize : Nat
  encrypt : List UInt8 → List UInt8 → List UInt8 → List UInt8 → List UInt8
  decrypt : List UInt8 → List UInt8 → List UInt8 → List UInt8 → Option (List UInt8)
  encrypt_length : ∀ key nonce aad plain,
    (encrypt key nonce aad plain).length = plain.length + tagSize
  decrypt_encrypt : ∀ key nonce aad plain,
    decrypt key nonce aad (encrypt key nonce aad plain) = some plain

/-- The sealed message is rejected under any other nonce or associated
data. -/
def Aead.Authentic (A : Aead) (key nonce aad plain : List UInt8) : Prop :=
  ∀ nonce' aad', (nonce', aad') ≠ (nonce, aad) →
    A.decrypt key nonce' aad' (A.encrypt key nonce aad plain) = none

-- ==== an instance

section OneTime

variable (nonce₀ aad₀ plain₀ : List UInt8)

/-- The tag: all ones for the message singled out, zeros otherwise. -/
def oneTimeTag (nonce aad plain : List UInt8) : List UInt8 :=
  if nonce = nonce₀ ∧ aad = aad₀ ∧ plain = plain₀ then List.replicate 16 1
  else List.replicate 16 0

theorem oneTimeTag_length (nonce aad plain : List UInt8) :
    (oneTimeTag nonce₀ aad₀ plain₀ nonce aad plain).length = 16 := by
  unfold oneTimeTag
  split <;> rfl

/-- The message in clear, and a tag that singles out one message. -/
def oneTimeAead : Aead where
  tagSize := 16
  encrypt _ nonce aad plain := plain ++ oneTimeTag nonce₀ aad₀ plain₀ nonce aad plain
  decrypt _ nonce aad cipher :=
    let plain := cipher.take (cipher.length - 16)
    if 16 ≤ cipher.length
        ∧ cipher.drop (cipher.length - 16) = oneTimeTag nonce₀ aad₀ plain₀ nonce aad plain
    then some plain else none
  encrypt_length key nonce aad plain := by
    rw [List.length_append, oneTimeTag_length]
  decrypt_encrypt key nonce aad plain := by
    have hlen : (plain ++ oneTimeTag nonce₀ aad₀ plain₀ nonce aad plain).length - 16
        = plain.length := by
      rw [List.length_append, oneTimeTag_length]
      omega
    simp only [hlen, List.take_left, List.drop_left]
    rw [if_pos]
    rw [List.length_append, oneTimeTag_length]
    exact ⟨by omega, trivial⟩

theorem oneTimeAead_authentic (key : List UInt8) :
    (oneTimeAead nonce₀ aad₀ plain₀).Authentic key nonce₀ aad₀ plain₀ := by
  intro nonce' aad' hne
  have htag : oneTimeTag nonce₀ aad₀ plain₀ nonce₀ aad₀ plain₀ = List.replicate 16 1 := by
    rw [oneTimeTag, if_pos ⟨rfl, rfl, rfl⟩]
  have hother : oneTimeTag nonce₀ aad₀ plain₀ nonce' aad' plain₀ = List.replicate 16 0 := by
    rw [oneTimeTag, if_neg]
    rintro ⟨rfl, rfl, -⟩
    exact hne rfl
  have hlen : (plain₀ ++ List.replicate 16 (1 : UInt8)).length - 16 = plain₀.length := by
    rw [List.length_append, List.length_replicate]
    omega
  simp only [oneTimeAead, htag, hlen, List.take_left, List.drop_left, hother]
  rw [if_neg]
  rintro ⟨-, h⟩
  exact absurd h (by decide)

end OneTime

end Eular.Lib
