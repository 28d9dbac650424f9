import Mathlib.Data.List.Basic

/-!
Reading items from a stream that arrives in chunks. A reader takes an item from the front of a buffer as soon as the
item is complete, whatever follows it; what is not complete stays in the buffer. The items of a stream are the same
however the stream is cut (`feedAll_eq_drain`).
-/

namespace Framing

variable {α β : Type*}

/-- Takes one item from the front of a buffer, with what is left; nothing while the item is not complete. -/
structure Reader (α β : Type*) where
  take : List β → Option (α × List β)
  shrinks : ∀ {buf item left}, take buf = some (item, left) → left.length < buf.length
  stable : ∀ {buf item left}, take buf = some (item, left) → ∀ more, take (buf ++ more) = some (item, left ++ more)

namespace Reader

variable (reader : Reader α β)

/-- The items that are complete in a buffer, and what is left in it, with fuel for one item each. -/
def items : Nat → List β → List α × List β
  | 0, buf => ([], buf)
  | fuel + 1, buf =>
    match reader.take buf with
    | none => ([], buf)
    | some (item, left) =>
      let (more, left) := items fuel left
      (item :: more, left)

def drain (buf : List β) : List α × List β := reader.items buf.length buf

/-- The items that a chunk completes, and what is buffered then. -/
def feed (held chunk : List β) : List α × List β := reader.drain (held ++ chunk)

def feedAll (held : List β) : List (List β) → List α × List β
  | [] => ([], held)
  | chunk :: rest =>
    let (items, held) := reader.feed held chunk
    let (more, held) := feedAll held rest
    (items ++ more, held)

variable {reader}

theorem feedAll_cons (held chunk : List β) (rest : List (List β)) :
    reader.feedAll held (chunk :: rest) =
      ((reader.feed held chunk).1 ++ (reader.feedAll (reader.feed held chunk).2 rest).1,
        (reader.feedAll (reader.feed held chunk).2 rest).2) := rfl

theorem items_enough {n : Nat} {buf : List β} (enough : buf.length ≤ n) : reader.items n buf = reader.drain buf := by
  have any : ∀ n m (buf : List β), buf.length ≤ n → buf.length ≤ m → reader.items n buf = reader.items m buf := by
    intro n
    induction n with
    | zero =>
      intro m buf short _
      cases m with
      | zero => rfl
      | succ m =>
        cases taken : reader.take buf with
        | none => simp [items, taken]
        | some result => exact absurd (reader.shrinks taken) (by omega)
    | succ n ih =>
      intro m buf left right
      cases taken : reader.take buf with
      | none => cases m <;> simp [items, taken]
      | some result =>
        obtain ⟨item, rest⟩ := result
        have shorter := reader.shrinks taken
        cases m with
        | zero => omega
        | succ m => simp only [items, taken, ih m rest (by omega) (by omega)]
  exact any n buf.length buf enough (Nat.le_refl _)

theorem drain_none {buf : List β} (incomplete : reader.take buf = none) : reader.drain buf = ([], buf) := by
  unfold drain
  cases buf.length <;> simp [items, incomplete]

theorem drain_some {buf left : List β} {item : α} (taken : reader.take buf = some (item, left)) :
    reader.drain buf = (item :: (reader.drain left).1, (reader.drain left).2) := by
  have shorter := reader.shrinks taken
  obtain ⟨n, length⟩ : ∃ n, buf.length = n + 1 := ⟨buf.length - 1, by omega⟩
  have rest : reader.items n left = reader.drain left := items_enough (by omega)
  simp only [drain, length, items, taken] at rest ⊢
  rw [rest]

/-- What is left holds no complete item. -/
theorem take_drain (buf : List β) : reader.take (reader.drain buf).2 = none := by
  induction size : buf.length using Nat.strongRecOn generalizing buf with
  | ind n ih =>
    cases taken : reader.take buf with
    | none => rwa [drain_none taken]
    | some result =>
      obtain ⟨item, left⟩ := result
      rw [drain_some taken]
      exact ih left.length (size ▸ reader.shrinks taken) left rfl

/-- What every item has that is taken from a buffer of a kind, where what is left of the buffer is of the kind too. -/
theorem drain_forall {kind : List β → Prop} {property : α → Prop}
    (takes : ∀ buf item left, kind buf → reader.take buf = some (item, left) → property item ∧ kind left) {buf : List β}
    (holds : kind buf) : ∀ item ∈ (reader.drain buf).1, property item := by
  induction size : buf.length using Nat.strongRecOn generalizing buf with
  | ind n ih =>
    cases taken : reader.take buf with
    | none =>
      rw [drain_none taken]
      exact nofun
    | some result =>
      obtain ⟨item, left⟩ := result
      obtain ⟨here, rest⟩ := takes buf item left holds taken
      rw [drain_some taken]
      exact List.forall_mem_cons.mpr ⟨here, ih left.length (size ▸ reader.shrinks taken) rest rfl⟩

/-- Draining two parts of a stream is draining the first, then what it leaves with the second. -/
theorem drain_append (buf more : List β) :
    reader.drain (buf ++ more) = ((reader.drain buf).1 ++ (reader.drain ((reader.drain buf).2 ++ more)).1,
      (reader.drain ((reader.drain buf).2 ++ more)).2) := by
  induction size : buf.length using Nat.strongRecOn generalizing buf with
  | ind n ih =>
    cases taken : reader.take buf with
    | none => rw [drain_none taken, List.nil_append]
    | some result =>
      obtain ⟨item, left⟩ := result
      have rest := ih left.length (size ▸ reader.shrinks taken) left rfl
      rw [drain_some taken, drain_some (reader.stable taken more), rest]
      rfl

/-- The items of a stream do not depend on its chunks. -/
theorem feedAll_eq_drain {held : List β} (incomplete : reader.take held = none) (chunks : List (List β)) :
    reader.feedAll held chunks = reader.drain (held ++ chunks.flatten) := by
  induction chunks generalizing held with
  | nil => rw [feedAll, List.flatten_nil, List.append_nil, drain_none incomplete]
  | cons chunk rest ih =>
    have others := ih (take_drain (held ++ chunk))
    rw [feedAll_cons, feed, others, List.flatten_cons, ← List.append_assoc, drain_append (held ++ chunk)]

end Reader

/-! ### Items that may be malformed -/

variable {ε : Type*}

/-- The items before the first malformed one, and what is wrong with that one. -/
def sound : List (Except ε α) → List α × Option ε
  | [] => ([], none)
  | .error failure :: _ => ([], some failure)
  | .ok item :: rest => (item :: (sound rest).1, (sound rest).2)

theorem sound_append {first : List (Except ε α)} (none : (sound first).2 = none) (rest : List (Except ε α)) :
    sound (first ++ rest) = ((sound first).1 ++ (sound rest).1, (sound rest).2) := by
  induction first with
  | nil => rfl
  | cons head tail ih =>
    cases head with
    | error failure => simp [sound] at none
    | ok item => simp [sound, ih none]

/-- What is wrong in a first part is what is wrong. -/
theorem sound_append_failed {first : List (Except ε α)} {failure : ε} (failed : (sound first).2 = some failure)
    (rest : List (Except ε α)) : sound (first ++ rest) = sound first := by
  induction first with
  | nil => simp [sound] at failed
  | cons head tail ih =>
    cases head with
    | error other => rfl
    | ok item => simp [sound, ih failed]

end Framing
