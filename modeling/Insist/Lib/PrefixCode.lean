/-
**Prefix codes.**

A code assigns every item a non-empty word, and no word continues another: what stands at the front of an
input tells which item it is (`aligned`). From this alone:

* `split_eq` — an input that starts with two items' words starts with one item, and leaves one rest;
* `encodeAll_front` — where a sequence of items stands at the front of an encoded sequence, it is an
  initial part of that sequence, so no item straddles a cut between two encoded inputs.
-/
import Mathlib.Data.List.Basic

namespace Insist.Lib

/-- A code in which no word continues another. -/
structure PrefixCode (α β : Type*) where
  /-- The word of an item. -/
  encode : α → List β
  encode_ne_nil : ∀ item, encode item ≠ []
  aligned : ∀ {first second : α} {rest rest' : List β},
    encode first ++ rest = encode second ++ rest' → first = second

namespace PrefixCode

variable {α β : Type*} (code : PrefixCode α β)

/-- The words of a sequence of items, one after the other. -/
def encodeAll (items : List α) : List β := items.flatMap code.encode

@[simp] theorem encodeAll_nil : code.encodeAll [] = [] := rfl

@[simp] theorem encodeAll_cons (item : α) (items : List α) :
    code.encodeAll (item :: items) = code.encode item ++ code.encodeAll items := rfl

theorem encodeAll_append (first second : List α) :
    code.encodeAll (first ++ second) = code.encodeAll first ++ code.encodeAll second :=
  List.flatMap_append

variable {code}

/-- **The front of an input is one item's word, and the rest is what follows it.** -/
theorem split_eq {first second : α} {rest rest' : List β}
    (same : code.encode first ++ rest = code.encode second ++ rest') :
    first = second ∧ rest = rest' := by
  obtain rfl := code.aligned same
  exact ⟨rfl, List.append_cancel_left same⟩

/-- **Items at the front of an encoded sequence are its first items.** -/
theorem encodeAll_front {items all : List α} {rest : List β}
    (same : code.encodeAll items ++ rest = code.encodeAll all) :
    ∃ later, all = items ++ later ∧ rest = code.encodeAll later := by
  induction items generalizing all with
  | nil => exact ⟨all, rfl, same⟩
  | cons item items ih =>
      rw [encodeAll_cons, List.append_assoc] at same
      cases all with
      | nil => exact absurd (List.append_eq_nil_iff.mp same).1 (code.encode_ne_nil item)
      | cons item' all =>
          obtain ⟨rfl, tails⟩ := split_eq same
          obtain ⟨later, rfl, rests⟩ := ih tails
          exact ⟨later, rfl, rests⟩

end PrefixCode

end Insist.Lib
