/-
**Incremental parsing of a stream.**

A `StreamParser` takes one item off the front of its input, asks for more input, or rejects it. Its
three laws say that an item consumes input, and that an item or a rejection found in a prefix of the
input stays found when more input follows. From these alone:

* `Parses input items rest` — popping `items` one after the other leaves `rest`;
* `Parses.append`, `Parses.trans` — parsing what has arrived and later the residue together with what arrives
  next is parsing both at once, so the cut points do not matter;
* `exists_stuck`, `Parses.eq_of_stuck` — every input has exactly one parse that cannot be continued;
* `Parses.prefix_of_stuck` — any partial parse is an initial part of that one;
* `Parses.pop_ne_bad` — a prefix of a stream of good items is never rejected.
-/
import Mathlib.Data.List.Basic

namespace Insist.Lib

/-- What one attempt to take an item off the front of the input answers. -/
inductive Pop (α β ε : Type*)
  | needMore
  | item (value : α) (rest : List β)
  | bad (reason : ε)

/-- A parser that takes items off the front of its input. -/
structure StreamParser (α β ε : Type*) where
  /-- One attempt. -/
  pop : List β → Pop α β ε
  shrinks : ∀ {input value rest}, pop input = .item value rest → rest.length < input.length
  item_append : ∀ {input value rest}, pop input = .item value rest →
    ∀ more, pop (input ++ more) = .item value (rest ++ more)
  bad_append : ∀ {input reason}, pop input = .bad reason →
    ∀ more, pop (input ++ more) = .bad reason

namespace StreamParser

variable {α β ε : Type*} {parser : StreamParser α β ε}

/-- Popping `items` one after the other off `input` leaves `rest`. -/
inductive Parses (parser : StreamParser α β ε) : List β → List α → List β → Prop
  | nil (input : List β) : Parses parser input [] input
  | cons {input next rest : List β} {value : α} {items : List α} :
      parser.pop input = .item value next → Parses parser next items rest →
      Parses parser input (value :: items) rest

/-- No further item can be popped. -/
def Stuck (parser : StreamParser α β ε) (input : List β) : Prop :=
  ∀ value rest, parser.pop input ≠ .item value rest

theorem stuck_of_needMore {input : List β} (popped : parser.pop input = .needMore) :
    parser.Stuck input := by
  intro value rest other
  rw [popped] at other
  cases other

theorem stuck_of_bad {input : List β} {reason : ε} (popped : parser.pop input = .bad reason) :
    parser.Stuck input := by
  intro value rest other
  rw [popped] at other
  cases other

namespace Parses

theorem trans {input middle rest : List β} {first second : List α}
    (left : parser.Parses input first middle) (right : parser.Parses middle second rest) :
    parser.Parses input (first ++ second) rest := by
  induction left with
  | nil input => exact right
  | cons popped _ ih => exact .cons popped (ih right)

theorem snoc {input middle rest : List β} {items : List α} {value : α}
    (parsed : parser.Parses input items middle) (popped : parser.pop middle = .item value rest) :
    parser.Parses input (items ++ [value]) rest :=
  parsed.trans (.cons popped (.nil rest))

theorem eq_rest {input rest : List β} (parsed : parser.Parses input [] rest) : input = rest := by
  cases parsed
  rfl

/-- Later input is left alone. -/
theorem append {input rest : List β} {items : List α} (parsed : parser.Parses input items rest)
    (more : List β) : parser.Parses (input ++ more) items (rest ++ more) := by
  induction parsed with
  | nil input => exact .nil _
  | cons popped _ ih => exact .cons (parser.item_append popped more) ih

/-- **A partial parse is an initial part of a parse that cannot be continued.** -/
theorem prefix_of_stuck {input rest rest' : List β} {items items' : List α}
    (parsed : parser.Parses input items rest) (stuck : parser.Stuck rest)
    (partly : parser.Parses input items' rest') :
    ∃ later, items = items' ++ later ∧ parser.Parses rest' later rest := by
  induction partly generalizing items with
  | nil input => exact ⟨items, rfl, parsed⟩
  | cons popped _ ih =>
      cases parsed with
      | nil _ => exact absurd popped (stuck _ _)
      | cons popped' tail =>
          rw [popped] at popped'
          cases popped'
          obtain ⟨later, rfl, rests⟩ := ih tail
          exact ⟨later, rfl, rests⟩

/-- **Two parses that cannot be continued are equal.** -/
theorem eq_of_stuck {input rest rest' : List β} {items items' : List α}
    (parsed : parser.Parses input items rest) (stuck : parser.Stuck rest)
    (parsed' : parser.Parses input items' rest') (stuck' : parser.Stuck rest') :
    items = items' ∧ rest = rest' := by
  obtain ⟨later, rfl, rests⟩ := parsed.prefix_of_stuck stuck parsed'
  cases rests with
  | nil _ => simp
  | cons popped _ => exact absurd popped (stuck' _ _)

/-- **A prefix of a stream of good items is never rejected.** -/
theorem pop_ne_bad {input residue more rest : List β} {items all : List α}
    (whole : parser.Parses (input ++ more) all rest) (clean : parser.pop rest = .needMore)
    (parsed : parser.Parses input items residue) (reason : ε) :
    parser.pop residue ≠ .bad reason := by
  intro rejected
  have later := parser.bad_append rejected more
  obtain ⟨others, _, rests⟩ :=
    whole.prefix_of_stuck (stuck_of_needMore clean) (parsed.append more)
  cases rests with
  | nil _ =>
      rw [later] at clean
      cases clean
  | cons popped _ =>
      rw [later] at popped
      cases popped

/-- What is popped off a prefix of a stream is an initial part of what the stream holds. -/
theorem prefix_of_whole {input residue more rest : List β} {items all : List α}
    (whole : parser.Parses (input ++ more) all rest) (clean : parser.pop rest = .needMore)
    (parsed : parser.Parses input items residue) : items <+: all := by
  obtain ⟨later, rfl, _⟩ := whole.prefix_of_stuck (stuck_of_needMore clean) (parsed.append more)
  exact List.prefix_append _ _

end Parses

/-- **Every input has a parse that cannot be continued.** -/
theorem exists_stuck (parser : StreamParser α β ε) (input : List β) :
    ∃ items rest, parser.Parses input items rest ∧ parser.Stuck rest := by
  induction size : input.length using Nat.strongRecOn generalizing input with
  | ind size' ih =>
      subst size
      cases popped : parser.pop input with
      | needMore => exact ⟨[], input, .nil input, stuck_of_needMore popped⟩
      | bad reason => exact ⟨[], input, .nil input, stuck_of_bad popped⟩
      | item value next =>
          obtain ⟨items, rest, parsed, stuck⟩ := ih next.length (parser.shrinks popped) next rfl
          exact ⟨value :: items, rest, .cons popped parsed, stuck⟩

end StreamParser

end Insist.Lib
