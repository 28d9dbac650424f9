import SmallGateway.Lib.BigEndian

/-!
Computations that may fault: a position or a part outside of its bytes, a number that does not fit, and a loop that is
cut off. What a program hands back as its own error is a value of such a computation, and not a fault.
-/

namespace Faults

inductive Fault where
  | outside
  | wrongLength
  | overflow
  | cutOff
  deriving DecidableEq

abbrev Checked (α : Type) := Except Fault α

variable {α σ ρ : Type}

@[simp] theorem ok_bind (x : α) (f : α → Checked ρ) : (Except.ok x >>= f : Checked ρ) = f x := rfl

/-! ### Positions and numbers -/

def index (xs : List α) (pos : Nat) : Checked α :=
  match xs[pos]? with
  | some x => .ok x
  | none => .error .outside

/-- The elements from one position up to another. -/
def part (xs : List α) (start stop : Nat) : Checked (List α) :=
  if start ≤ stop ∧ stop ≤ xs.length then .ok ((xs.take stop).drop start) else .error .outside

/-- The number that as many bytes stand for. -/
def number (width : Nat) (bytes : List UInt8) : Checked Nat :=
  if bytes.length = width then .ok (BigEndian.decode bytes) else .error .wrongLength

/-- The sum of two numbers of 64 bits. -/
def plus (a b : Nat) : Checked Nat := if a + b < 2 ^ 64 then .ok (a + b) else .error .overflow

def minus (a b : Nat) : Checked Nat := if b ≤ a then .ok (a - b) else .error .overflow

theorem index_ok {xs : List α} {pos : Nat} (inside : pos < xs.length) : index xs pos = .ok xs[pos] := by
  rw [index, List.getElem?_eq_getElem inside]

theorem part_ok {xs : List α} {start stop : Nat} (le : start ≤ stop) (inside : stop ≤ xs.length) :
    part xs start stop = .ok ((xs.take stop).drop start) := if_pos ⟨le, inside⟩

theorem number_ok {width : Nat} {bytes : List UInt8} (length : bytes.length = width) :
    number width bytes = .ok (BigEndian.decode bytes) := if_pos length

theorem plus_ok {a b : Nat} (fits : a + b < 2 ^ 64) : plus a b = .ok (a + b) := if_pos fits

theorem minus_ok {a b : Nat} (le : b ≤ a) : minus a b = .ok (a - b) := if_pos le

/-! ### Loops -/

/-- A loop whose passes go on from a state or leave with a result, cut off after a number of passes. -/
def loop (pass : σ → Checked (σ ⊕ ρ)) : Nat → σ → Checked ρ
  | 0, _ => .error .cutOff
  | passes + 1, state => do
    match ← pass state with
    | .inl next => loop pass passes next
    | .inr result => .ok result

/-- A loop is through without a fault, and with the result that is expected of its first state, when every pass keeps
    an invariant and the expected result, or leaves with that result, and takes a least amount from the size of the
    state where it goes on. -/
theorem loop_total (pass : σ → Checked (σ ⊕ ρ)) (inv : σ → Prop) (size : σ → Nat) (expected : σ → ρ) (least : Nat)
    (one : ∀ state, inv state →
      (∃ next, pass state = .ok (.inl next) ∧ inv next ∧ size next + least ≤ size state ∧
        expected next = expected state) ∨
      pass state = .ok (.inr (expected state)))
    {passes : Nat} {state : σ} (holds : inv state) (enough : size state < passes * least) :
    loop pass passes state = .ok (expected state) := by
  induction passes generalizing state with
  | zero => omega
  | succ passes ih =>
    rw [loop]
    rcases one state holds with ⟨next, goes, kept, smaller, same⟩ | leaves
    · rw [goes, ok_bind]
      have fewer : size next < passes * least := by
        rw [Nat.succ_mul] at enough
        omega
      rw [← same]
      exact ih kept fewer
    · rw [leaves, ok_bind]

end Faults
