/-!
Parsing expressions with results.

A `Peg α` is a finite tree that says how a text is read: what is chosen first, what is repeated as
often as possible, and which value comes out. A choice is never revisited after it has succeeded.
As the tree is data, a statement about all expressions is proved by induction on it.

Beside the result, reading answers with the greatest offset at which a named expression was tried
in vain, on whatever path: that is where a text that does not fit is reported.
-/

namespace Timetable.Grammar

/-- A place in a text: what is left to read, and how many bytes come before it. -/
structure Cursor where
  rest : List Char
  offset : Nat
  deriving DecidableEq

/-- The number of bytes that characters take in UTF-8. -/
def byteLength (text : List Char) : Nat := text.foldr (fun c count => c.utf8Size + count) 0

/-- The beginning of a text. -/
def Cursor.ofText (text : List Char) : Cursor := ⟨text, 0⟩

/-- The place after a number of characters. -/
def Cursor.drop (cursor : Cursor) (count : Nat) : Cursor :=
  ⟨cursor.rest.drop count, cursor.offset + byteLength (cursor.rest.take count)⟩

/-- A part of a text, with the byte offset of its beginning. -/
structure Fragment where
  position : Nat
  text : List Char
  deriving DecidableEq, Inhabited

/-- The part of a text between two places of it. -/
def Cursor.fragmentTo (start stop : Cursor) : Fragment :=
  ⟨start.offset, start.rest.take (start.rest.length - stop.rest.length)⟩

/-- What comes out of reading from a place. -/
structure Outcome (α : Type) where
  /-- The greatest offset at which a named expression failed, or 0. -/
  furthest : Nat
  /-- The value and the place after what was read, if the text fits. -/
  result : Option (α × Cursor)

/-- A parsing expression whose value has type `α`. -/
inductive Peg : Type → Type 1 where
  /-- Reads nothing. -/
  | pure {α : Type} (value : α) : Peg α
  /-- Fits nowhere. -/
  | fail {α : Type} : Peg α
  /-- Reads the given characters. -/
  | token (text : List Char) : Peg Unit
  /-- Reads as many characters of a class as there are, up to a limit, but not fewer than
  `least`. -/
  | chars (accepts : Char → Bool) (least : Nat) (most : Option Nat) : Peg (List Char)
  /-- Reads nothing, provided that no character of a class comes next. -/
  | notNext (forbids : Char → Bool) : Peg Unit
  /-- Reads nothing, provided that the text is over. -/
  | endOfText : Peg Unit
  /-- Changes the value. -/
  | map {α β : Type} (f : α → β) (inner : Peg α) : Peg β
  /-- Reads one after the other. -/
  | seq {α β : Type} (first : Peg α) (second : Peg β) : Peg (α × β)
  /-- Reads the first of two that fits. -/
  | choice {α : Type} (first second : Peg α) : Peg α
  /-- Reads the same as often as it fits. -/
  | many {α : Type} (inner : Peg α) : Peg (List α)
  /-- Notes the place if the inner expression fails. -/
  | named {α : Type} (inner : Peg α) : Peg α
  /-- Adds the text that was read to the value. -/
  | located {α : Type} (inner : Peg α) : Peg (α × Fragment)

namespace Outcome

/-- Success after a place, with nothing tried in vain. -/
def success {α : Type} (value : α) (cursor : Cursor) : Outcome α := ⟨0, some (value, cursor)⟩

/-- Failure without a name. -/
def failure {α : Type} : Outcome α := ⟨0, none⟩

/-- Goes on from a success. -/
def andThen {α β : Type} (outcome : Outcome α) (next : α → Cursor → Outcome β) : Outcome β :=
  match outcome.result with
  | none => ⟨outcome.furthest, none⟩
  | some (value, cursor) =>
    let later := next value cursor
    ⟨max outcome.furthest later.furthest, later.result⟩

/-- Goes on from a failure. -/
def orElse {α : Type} (outcome : Outcome α) (next : Unit → Outcome α) : Outcome α :=
  match outcome.result with
  | none =>
    let later := next ()
    ⟨max outcome.furthest later.furthest, later.result⟩
  | some _ => outcome

/-- Notes the offset of a failure. -/
def noteFailure {α : Type} (outcome : Outcome α) (offset : Nat) : Outcome α :=
  match outcome.result with
  | none => ⟨max outcome.furthest offset, none⟩
  | some _ => outcome

@[simp] theorem result_andThen {α β : Type} (outcome : Outcome α)
    (next : α → Cursor → Outcome β) :
    (outcome.andThen next).result = outcome.result.bind fun r => (next r.1 r.2).result := by
  unfold andThen
  split <;> simp_all

@[simp] theorem result_orElse {α : Type} (outcome : Outcome α) (next : Unit → Outcome α) :
    (outcome.orElse next).result = outcome.result.or (next ()).result := by
  unfold orElse
  split <;> simp_all

@[simp] theorem result_noteFailure {α : Type} (outcome : Outcome α) (offset : Nat) :
    (outcome.noteFailure offset).result = outcome.result := by
  unfold noteFailure
  split <;> simp_all

end Outcome

/-- Repeats a step until it fails. The fuel bounds the number of attempts; as each repetition has to
read at least one character, one attempt more than there are characters is enough. -/
def repeatStep {α : Type} (step : Cursor → Outcome α) : Nat → Cursor → Outcome (List α)
  | 0, cursor => .success [] cursor
  | fuel + 1, cursor =>
    ((step cursor).andThen fun value next =>
      (repeatStep step fuel next).andThen fun values last => .success (value :: values) last).orElse
      fun _ => .success [] cursor

namespace Peg

/-- Reads a text from a place on. -/
def run : {α : Type} → Peg α → Cursor → Outcome α
  | _, pure value, cursor => .success value cursor
  | _, fail, _ => .failure
  | _, token text, cursor =>
    if text.isPrefixOf cursor.rest then .success () (cursor.drop text.length) else .failure
  | _, chars accepts least most, cursor =>
    let available :=
      match most with
      | some limit => cursor.rest.take limit
      | none => cursor.rest
    let taken := available.takeWhile accepts
    if least ≤ taken.length then .success taken (cursor.drop taken.length) else .failure
  | _, notNext forbids, cursor =>
    if cursor.rest.head?.any forbids then .failure else .success () cursor
  | _, endOfText, cursor =>
    if cursor.rest.isEmpty then .success () cursor else .failure
  | _, map f inner, cursor => (inner.run cursor).andThen fun value next => .success (f value) next
  | _, seq first second, cursor =>
    (first.run cursor).andThen fun a next =>
      (second.run next).andThen fun b last => .success (a, b) last
  | _, choice first second, cursor => (first.run cursor).orElse fun _ => second.run cursor
  | _, many inner, cursor => repeatStep inner.run (cursor.rest.length + 1) cursor
  | _, named inner, cursor => (inner.run cursor).noteFailure cursor.offset
  | _, located inner, cursor =>
    (inner.run cursor).andThen fun value next => .success (value, cursor.fragmentTo next) next

/-! ### Derived expressions -/

/-- Reads one after the other and keeps the first value. -/
def followedBy {α β : Type} (first : Peg α) (second : Peg β) : Peg α :=
  map Prod.fst (seq first second)

/-- Reads one after the other and keeps the second value. -/
def andThen {α β : Type} (first : Peg α) (second : Peg β) : Peg β :=
  map Prod.snd (seq first second)

/-- Reads the expression if it fits. -/
def optional {α : Type} (inner : Peg α) : Peg (Option α) := choice (map some inner) (pure none)

/-- Reads a word that stands for a value. -/
def word {α : Type} (text : String) (value : α) : Peg α := map (fun _ => value) (token text.toList)

/-- Reads the first expression of a list that fits. -/
def firstOf {α : Type} (alternatives : List (Peg α)) : Peg α := alternatives.foldr choice fail

/-- Reads elements with separators between them, at least one element. -/
def separatedBy {α β : Type} (item : Peg α) (separator : Peg β) : Peg (List α) :=
  map (fun both => both.1 :: both.2) (seq item (many (separator.andThen item)))

end Peg

end Timetable.Grammar
