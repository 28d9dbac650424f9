import Mathlib.Data.List.Basic
import Mathlib.Data.List.Infix
import SmallGateway.Lib.Records

/-!
Paths as segments between slashes, and the removal of dot segments (RFC 3986, section 5.2.4), which reads the text of a
path from the front and writes another (`removeDotsFrom`). On a path in segments it is a walk over them with a stack.
What such a walk keeps are the elements that are pushed and never popped again (`stacked_eq`).
-/

namespace PathSegments

/-! ### Segments -/

/-- Each segment after a slash. -/
def render (segs : List (List Char)) : List Char := segs.flatMap fun seg => '/' :: seg

/-- The segments, and perhaps a slash after the last one. -/
def slashed (segs : List (List Char)) (slash : Bool) : List Char := render segs ++ if slash then ['/'] else []

/-- The segments of a path that are not empty. -/
def segments (path : List Char) : List (List Char) := (path.splitOn '/').filter fun seg => seg ≠ []

variable {segs kept : List (List Char)} {seg path output : List Char} {slash : Bool}

@[simp] theorem render_nil : render [] = [] := rfl

@[simp] theorem render_cons (seg : List Char) (segs : List (List Char)) :
    render (seg :: segs) = '/' :: (seg ++ render segs) := by
  simp [render]

@[simp] theorem render_append (segs others : List (List Char)) :
    render (segs ++ others) = render segs ++ render others := by
  simp [render]

theorem slashed_false (segs : List (List Char)) : slashed segs false = render segs := by
  simp [slashed]

theorem slashed_true (segs : List (List Char)) : slashed segs true = render (segs ++ [[]]) := by
  simp [slashed]

theorem slashed_cons (seg : List Char) (segs : List (List Char)) (slash : Bool) :
    slashed (seg :: segs) slash = '/' :: (seg ++ slashed segs slash) := by
  simp [slashed]

theorem intercalate_eq (seg : List Char) (segs : List (List Char)) :
    ['/'].intercalate (seg :: segs) = seg ++ render segs := by
  induction segs generalizing seg with
  | nil => simp
  | cons next rest ih => rw [List.intercalate_cons_cons, ih, render_cons, List.append_assoc, List.singleton_append]

theorem splitOn_render (plain : ∀ seg ∈ segs, '/' ∉ seg) : (render segs).splitOn '/' = [] :: segs := by
  have parts : ['/'].intercalate ([] :: segs) = render segs := by rw [intercalate_eq, List.nil_append]
  rw [← parts]
  refine List.splitOn_intercalate '/' ?_ (List.cons_ne_nil _ _)
  intro seg listed
  rcases List.mem_cons.mp listed with rfl | listed
  · exact List.not_mem_nil
  · exact plain seg listed

theorem render_splitOn (rest : List Char) : render (rest.splitOn '/') = '/' :: rest := by
  cases parts : rest.splitOn '/' with
  | nil => exact absurd parts (List.splitOn_ne_nil '/' rest)
  | cons seg segs =>
    rw [render_cons, ← intercalate_eq, ← parts, List.intercalate_splitOn]

theorem slash_not_mem_splitOn (seg : List Char) (listed : seg ∈ path.splitOn '/') : '/' ∉ seg :=
  (Records.mem_splitOn listed).1

/-- A path from the root is its segments, empty ones included, each after a slash. -/
theorem exists_render (rooted : path.head? = some '/') :
    ∃ segs, segs ≠ [] ∧ (∀ seg ∈ segs, '/' ∉ seg) ∧ path = render segs := by
  cases path with
  | nil => cases rooted
  | cons c rest =>
    obtain rfl : c = '/' := Option.some.inj rooted
    exact ⟨rest.splitOn '/', List.splitOn_ne_nil '/' rest, slash_not_mem_splitOn, (render_splitOn rest).symm⟩

theorem splitOn_slashed (plain : ∀ seg ∈ segs, '/' ∉ seg) :
    (slashed segs slash).splitOn '/' = [] :: (segs ++ if slash then [[]] else []) := by
  cases slash with
  | false => rw [slashed_false, splitOn_render plain, if_neg (by simp), List.append_nil]
  | true =>
    have plainToo : ∀ seg ∈ segs ++ [[]], '/' ∉ seg := by
      intro seg listed
      rcases List.mem_append.mp listed with listed | listed
      · exact plain seg listed
      · rw [List.mem_singleton.mp listed]
        exact List.not_mem_nil
    rw [slashed_true, splitOn_render plainToo, if_pos rfl]

theorem segments_render (plain : ∀ seg ∈ segs, '/' ∉ seg) :
    segments (render segs) = segs.filter fun seg => seg ≠ [] := by
  rw [segments, splitOn_render plain, List.filter_cons_of_neg (by simp)]

theorem segments_slashed (plain : ∀ seg ∈ segs, seg ≠ [] ∧ '/' ∉ seg) : segments (slashed segs slash) = segs := by
  have kept : segs.filter (fun seg => seg ≠ []) = segs :=
    List.filter_eq_self.mpr fun seg listed => decide_eq_true (plain seg listed).1
  rw [segments, splitOn_slashed fun seg listed => (plain seg listed).2, List.filter_cons_of_neg (by simp),
    List.filter_append, kept]
  cases slash <;> simp

theorem mem_segments (listed : seg ∈ segments path) : seg ≠ [] ∧ '/' ∉ seg := by
  rw [segments, List.mem_filter, decide_eq_true_eq] at listed
  exact ⟨listed.2, slash_not_mem_splitOn seg listed.1⟩

/-- A rendered path ends with a slash where its last segment is empty. -/
theorem getLast?_render (plain : ∀ seg ∈ segs, '/' ∉ seg) :
    (render segs).getLast? = some '/' ↔ segs.getLast? = some [] := by
  rcases List.eq_nil_or_concat segs with rfl | ⟨before, last, rfl⟩
  · simp
  · rw [List.concat_eq_append, List.getLast?_concat, render_append, render_cons, render_nil, List.append_nil]
    rcases List.eq_nil_or_concat last with rfl | ⟨start, c, rfl⟩
    · simp
    · have other : c ≠ '/' := by
        rintro rfl
        exact plain (start.concat '/') (by simp) (by simp)
      simp [List.getLast?_append, List.getLast?_cons, other]

theorem getLast?_slashed (plain : ∀ seg ∈ segs, seg ≠ [] ∧ '/' ∉ seg) (root : segs = [] → slash = true) :
    (slashed segs slash).getLast? = some '/' ↔ slash = true := by
  cases slash with
  | true => simp [slashed]
  | false =>
    rw [slashed_false, getLast?_render fun seg listed => (plain seg listed).2]
    rcases List.eq_nil_or_concat segs with rfl | ⟨before, last, rfl⟩
    · cases root rfl
    · rw [List.concat_eq_append, List.getLast?_concat, Option.some.injEq]
      exact iff_of_false (plain last (by simp)).1 nofun

/-! ### Slashes merged -/

def mergeSlashes : List Char → List Char
  | '/' :: '/' :: rest => mergeSlashes ('/' :: rest)
  | c :: rest => c :: mergeSlashes rest
  | [] => []

theorem mergeSlashes_plain (plain : '/' ∉ seg) (rest : List Char) :
    mergeSlashes (seg ++ rest) = seg ++ mergeSlashes rest := by
  induction seg with
  | nil => rfl
  | cons c seg ih =>
    have other : c ≠ '/' := fun same => plain (by simp [same])
    have later : '/' ∉ seg := fun inside => plain (List.mem_cons_of_mem _ inside)
    rw [List.cons_append, mergeSlashes, ih later, List.cons_append]
    intro _ same
    exact absurd same other

theorem mergeSlashes_render (plain : ∀ seg ∈ segs, '/' ∉ seg) :
    mergeSlashes (render segs) = slashed (segs.filter fun seg => seg ≠ []) (segs.getLast? = some []) := by
  induction segs with
  | nil => rfl
  | cons seg rest ih =>
    have later : ∀ seg ∈ rest, '/' ∉ seg := fun seg listed => plain seg (List.mem_cons_of_mem _ listed)
    by_cases empty : seg = []
    · subst empty
      cases rest with
      | nil => rfl
      | cons next rest =>
        rw [List.filter_cons_of_neg (by simp), List.getLast?_cons_cons, ← ih later]
        simp [mergeSlashes]
    · have last : (seg :: rest).getLast? = some [] ↔ rest.getLast? = some [] := by
        cases rest with
        | nil => simp [empty]
        | cons next rest => rw [List.getLast?_cons_cons]
      have merged : mergeSlashes (render (seg :: rest)) = '/' :: (seg ++ mergeSlashes (render rest)) := by
        rw [render_cons, mergeSlashes, mergeSlashes_plain (plain seg List.mem_cons_self)]
        intro after _ same
        cases seg with
        | nil => exact empty rfl
        | cons c seg =>
          obtain rfl : c = '/' := (List.cons.inj same).1
          exact plain _ List.mem_cons_self List.mem_cons_self
      rw [merged, ih later, List.filter_cons_of_pos (by simpa using empty), slashed_cons]
      simp only [last]

/-! ### Encoded dots -/

/-- The ways to write a dot. -/
def dotSpellings : List (List Char) := [['.'], ['%', '2', 'e'], ['%', '2', 'E']]

/-- The segment is so many dots, each of them in some spelling. -/
def Spelled (dots : Nat) (seg : List Char) : Prop :=
  ∃ spellings : List (List Char), spellings.length = dots ∧ (∀ dot ∈ spellings, dot ∈ dotSpellings) ∧
    seg = spellings.flatten

def decodeDot : List Char → List Char
  | '%' :: '2' :: 'e' :: rest => '.' :: decodeDot rest
  | '%' :: '2' :: 'E' :: rest => '.' :: decodeDot rest
  | c :: rest => c :: decodeDot rest
  | [] => []

/-- The segment with its dots decoded, if that makes it a dot segment. -/
def decodeSegment (seg : List Char) : List Char :=
  if decodeDot seg = ['.'] ∨ decodeDot seg = ['.', '.'] then decodeDot seg else seg

/-- The path with the encoded dots of its dot segments decoded. -/
def decodeDots (path : List Char) : List Char := ['/'].intercalate ((path.splitOn '/').map decodeSegment)

theorem decodeDots_slashed (plain : ∀ seg ∈ segs, '/' ∉ seg) :
    decodeDots (slashed segs slash) = slashed (segs.map decodeSegment) slash := by
  have empty : decodeSegment [] = [] := rfl
  rw [decodeDots, splitOn_slashed plain, List.map_cons, intercalate_eq, empty, List.nil_append, List.map_append,
    render_append]
  cases slash <;> simp [slashed, empty]

theorem spelled_cons (dot : List Char) {dots : Nat} (listed : dot ∈ dotSpellings) (spelled : Spelled dots seg) :
    Spelled (dots + 1) (dot ++ seg) := by
  obtain ⟨spellings, count, each, rfl⟩ := spelled
  refine ⟨dot :: spellings, by rw [List.length_cons, count], ?_, List.flatten_cons.symm⟩
  intro other among
  rcases List.mem_cons.mp among with rfl | among
  · exact listed
  · exact each other among

theorem decodeDot_spelling {dot : List Char} (listed : dot ∈ dotSpellings) (rest : List Char) :
    decodeDot (dot ++ rest) = '.' :: decodeDot rest := by
  simp only [dotSpellings, List.mem_cons, List.not_mem_nil, or_false] at listed
  rcases listed with rfl | rfl | rfl
  · rfl
  · rfl
  · rfl

/-- A text that starts with no dot, in whatever spelling, keeps its first character. -/
theorem decodeDot_other {c : Char} {rest : List Char} (other : ∀ dot ∈ dotSpellings, ¬ dot <+: c :: rest) :
    c ≠ '.' ∧ decodeDot (c :: rest) = c :: decodeDot rest := by
  refine ⟨?_, ?_⟩
  · rintro rfl
    exact other ['.'] (by decide) (List.prefix_append ['.'] rest)
  · rw [decodeDot]
    · rintro after rfl rfl
      exact other ['%', '2', 'e'] (by decide) (List.prefix_append ['%', '2', 'e'] after)
    · rintro after rfl rfl
      exact other ['%', '2', 'E'] (by decide) (List.prefix_append ['%', '2', 'E'] after)

/-- Texts by the dots that they start with. -/
theorem dot_induction {motive : List Char → Prop} (empty : motive [])
    (dotted : ∀ dot ∈ dotSpellings, ∀ rest, motive rest → motive (dot ++ rest))
    (other : ∀ c rest, (∀ dot ∈ dotSpellings, ¬ dot <+: c :: rest) → motive (c :: rest)) (seg : List Char) :
    motive seg := by
  induction length : seg.length using Nat.strong_induction_on generalizing seg with
  | _ size ih =>
    cases seg with
    | nil => exact empty
    | cons c rest =>
      by_cases starts : ∃ dot ∈ dotSpellings, dot <+: c :: rest
      · obtain ⟨dot, listed, after, parts⟩ := starts
        have longer : 0 < dot.length := List.length_pos_of_ne_nil (by rintro rfl; exact absurd listed (by decide))
        have lengths : dot.length + after.length = size := by rw [← List.length_append, parts, length]
        rw [← parts]
        exact dotted dot listed after (ih after.length (by omega) after rfl)
      · exact other c rest fun dot listed starting => starts ⟨dot, listed, starting⟩

/-- What is decoded to dots only was written as so many dots. -/
theorem decodeDot_eq_replicate {dots : Nat} : decodeDot seg = List.replicate dots '.' ↔ Spelled dots seg := by
  constructor
  · intro decoded
    induction seg using dot_induction generalizing dots with
    | empty =>
      cases dots with
      | zero => exact ⟨[], rfl, fun _ listed => absurd listed List.not_mem_nil, rfl⟩
      | succ dots => cases decoded
    | dotted dot listed rest ih =>
      rw [decodeDot_spelling listed] at decoded
      cases dots with
      | zero => cases decoded
      | succ dots => exact spelled_cons dot listed (ih (List.cons.inj decoded).2)
    | other c rest other =>
      obtain ⟨noDot, kept⟩ := decodeDot_other other
      rw [kept] at decoded
      cases dots with
      | zero => cases decoded
      | succ dots => exact absurd (List.cons.inj decoded).1 noDot
  · rintro ⟨spellings, rfl, each, rfl⟩
    induction spellings with
    | nil => rfl
    | cons dot spellings ih =>
      rw [List.flatten_cons, decodeDot_spelling (each dot List.mem_cons_self),
        ih fun other among => each other (List.mem_cons_of_mem _ among)]
      rfl

/-! ### Dot segments removed -/

/-- The text without its last segment and the slash before it. -/
def removeLast (output : List Char) : List Char := (output.reverse.dropWhile (· ≠ '/')).tail.reverse

/-- The algorithm of the RFC, from the input that is left and the output so far. -/
def removeDotsFrom (input output : List Char) : List Char :=
  match input with
  | [] => output
  | '.' :: '.' :: '/' :: rest => removeDotsFrom rest output
  | '.' :: '/' :: rest => removeDotsFrom rest output
  | '/' :: '.' :: '/' :: rest => removeDotsFrom ('/' :: rest) output
  | ['/', '.'] => removeDotsFrom ['/'] output
  | '/' :: '.' :: '.' :: '/' :: rest => removeDotsFrom ('/' :: rest) (removeLast output)
  | ['/', '.', '.'] => removeDotsFrom ['/'] (removeLast output)
  | ['.'] => output
  | ['.', '.'] => output
  | c :: rest => removeDotsFrom (rest.dropWhile (· ≠ '/')) (output ++ c :: rest.takeWhile (· ≠ '/'))
termination_by input.length
decreasing_by
  all_goals simp only [List.length_cons, List.length_nil]
  all_goals try omega
  exact Nat.lt_succ_of_le (List.dropWhile_suffix _).length_le

def removeDotSegments (path : List Char) : List Char := removeDotsFrom path []

theorem removeLast_render (plain : '/' ∉ seg) : removeLast (output ++ '/' :: seg) = output := by
  have skipped : (seg.reverse ++ '/' :: output.reverse).dropWhile (· ≠ '/') = '/' :: output.reverse := by
    rw [List.dropWhile_append_of_pos fun c inside => ?_]
    · rw [List.dropWhile_cons_of_neg (by simp)]
    · simp only [decide_eq_true_eq]
      rintro rfl
      exact plain (List.mem_reverse.mp inside)
  simp only [removeLast, List.reverse_append, List.reverse_cons, List.append_assoc, List.singleton_append, skipped,
    List.tail_cons, List.reverse_reverse]

theorem removeLast_dropLast (plain : ∀ seg ∈ segs, '/' ∉ seg) : removeLast (render segs) = render segs.dropLast := by
  rcases List.eq_nil_or_concat segs with rfl | ⟨before, last, rfl⟩
  · rfl
  · rw [List.concat_eq_append, render_append, render_cons, render_nil, List.append_nil, List.dropLast_concat]
    exact removeLast_render (plain last (by simp))

theorem removeDotsFrom_nil : removeDotsFrom [] output = output := by
  rw [removeDotsFrom]

theorem removeDotsFrom_slash : removeDotsFrom ['/'] output = output ++ ['/'] := by
  rw [removeDotsFrom] <;> simp [removeDotsFrom_nil]

theorem removeDotsFrom_current (segs : List (List Char)) (slash : Bool) :
    removeDotsFrom (slashed (['.'] :: segs) slash) output =
      removeDotsFrom (slashed segs (slash || segs.isEmpty)) output := by
  cases segs with
  | cons seg segs =>
    rw [slashed_cons, slashed_cons]
    simp [removeDotsFrom, slashed_cons]
  | nil => cases slash <;> simp [slashed, removeDotsFrom]

theorem removeDotsFrom_parent (segs : List (List Char)) (slash : Bool) :
    removeDotsFrom (slashed (['.', '.'] :: segs) slash) output =
      removeDotsFrom (slashed segs (slash || segs.isEmpty)) (removeLast output) := by
  cases segs with
  | cons seg segs =>
    rw [slashed_cons, slashed_cons]
    simp [removeDotsFrom, slashed_cons]
  | nil => cases slash <;> simp [slashed, removeDotsFrom]

/-- A segment without a slash is read up to the slash after it. -/
theorem takeWhile_slashed (plain : '/' ∉ seg) (segs : List (List Char)) (slash : Bool) :
    (seg ++ slashed segs slash).takeWhile (· ≠ '/') = seg ∧
      (seg ++ slashed segs slash).dropWhile (· ≠ '/') = slashed segs slash := by
  have each : ∀ c ∈ seg, decide (c ≠ '/') = true := by
    intro c inside
    rw [decide_eq_true_eq]
    rintro rfl
    exact plain inside
  rw [List.takeWhile_append_of_pos each, List.dropWhile_append_of_pos each]
  cases segs with
  | cons next segs => simp [slashed_cons]
  | nil => cases slash <;> simp [slashed]

theorem removeDotsFrom_data (plain : '/' ∉ seg) (current : seg ≠ ['.']) (parent : seg ≠ ['.', '.']) :
    removeDotsFrom (slashed (seg :: segs) slash) output =
      removeDotsFrom (slashed segs slash) (output ++ '/' :: seg) := by
  obtain ⟨taken, left⟩ := takeWhile_slashed plain segs slash
  rw [slashed_cons, removeDotsFrom]
  · rw [taken, left]
  · nofun
  · nofun
  -- What is read up to the slash is the segment, and that is no dot segment.
  · intro rest _ same
    rw [same] at taken
    exact current taken.symm
  · intro _ same
    rw [same] at taken
    exact current taken.symm
  · intro rest _ same
    rw [same] at taken
    exact parent taken.symm
  · intro _ same
    rw [same] at taken
    exact parent taken.symm
  · nofun
  · nofun

/-! ### What a stack keeps -/

section Stack

inductive Move
  | push
  | pop
  | stay
  deriving DecidableEq

variable {α : Type*} (move : α → Move)

/-- The stack after an element. Popping the empty stack does nothing. -/
def stackStep (stack : List α) (x : α) : List α :=
  match move x with
  | .push => stack ++ [x]
  | .pop => stack.dropLast
  | .stay => stack

/-- Up to no element are there more pops than pushes. -/
def Survives (later : List α) : Prop :=
  ∀ stretch ∈ later.inits, stretch.countP (move · = .pop) ≤ stretch.countP (move · = .push)

instance (later : List α) : Decidable (Survives move later) :=
  inferInstanceAs (Decidable (∀ stretch ∈ later.inits, _))

/-- The elements that are pushed and not popped again, in their order. -/
def survivors : List α → List α
  | [] => []
  | x :: later => if move x = .push ∧ Survives move later then x :: survivors later else survivors later

/-- How many of the elements that are on the stack before are popped. -/
def popped : List α → Nat
  | [] => 0
  | x :: later =>
    match move x with
    | .push => popped later - 1
    | .pop => popped later + 1
    | .stay => popped later

variable {move} {stack later : List α} {x : α}

theorem popped_le_iff {n : Nat} : popped move later ≤ n ↔
    ∀ stretch ∈ later.inits, stretch.countP (move · = .pop) ≤ stretch.countP (move · = .push) + n := by
  induction later generalizing n with
  | nil => simp [popped]
  | cons x later ih =>
    rw [List.inits_cons, List.forall_mem_cons, List.forall_mem_map, popped]
    cases moved : move x with
    | push =>
      have counts (stretch : List α) : (x :: stretch).countP (move · = .pop) = stretch.countP (move · = .pop) ∧
          (x :: stretch).countP (move · = .push) = stretch.countP (move · = .push) + 1 := by
        simp [moved]
      simp only [counts, List.countP_nil, Nat.zero_le, true_and, Nat.sub_le_iff_le_add, ih, Nat.add_assoc,
        Nat.add_comm 1 n]
    | pop =>
      have counts (stretch : List α) : (x :: stretch).countP (move · = .pop) = stretch.countP (move · = .pop) + 1 ∧
          (x :: stretch).countP (move · = .push) = stretch.countP (move · = .push) := by
        simp [moved]
      cases n with
      | zero =>
        refine ⟨fun below => absurd below (Nat.not_succ_le_zero _), ?_⟩
        rintro ⟨-, bounded⟩
        have first := bounded [] (by simp)
        rw [(counts []).1, (counts []).2] at first
        cases first
      | succ n =>
        simp only [counts, List.countP_nil, Nat.zero_le, true_and, Nat.succ_le_succ_iff, ih, ← Nat.add_assoc]
    | stay =>
      have counts (stretch : List α) : (x :: stretch).countP (move · = .pop) = stretch.countP (move · = .pop) ∧
          (x :: stretch).countP (move · = .push) = stretch.countP (move · = .push) := by
        simp [moved]
      simp only [counts, List.countP_nil, Nat.zero_le, true_and, ih]

theorem survives_iff : Survives move later ↔ popped move later = 0 := by
  rw [← Nat.le_zero, popped_le_iff, Survives]
  rfl

theorem foldl_stackStep (stack : List α) :
    later.foldl (stackStep move) stack = stack.take (stack.length - popped move later) ++ survivors move later := by
  induction later generalizing stack with
  | nil => simp [popped, survivors]
  | cons x later ih =>
    rw [List.foldl_cons, ih, survivors]
    simp only [survives_iff]
    cases moved : move x with
    | push =>
      have before : popped move (x :: later) = popped move later - 1 := by rw [popped, moved]
      have pushed : stackStep move stack x = stack ++ [x] := by rw [stackStep, moved]
      rw [before, pushed]
      cases count : popped move later with
      | zero => simp [List.take_of_length_le]
      | succ n =>
        rw [if_neg (by simp), Nat.add_sub_cancel, List.length_append, List.length_singleton, Nat.add_sub_add_right,
          List.take_append_of_le_length (Nat.sub_le _ _)]
    | pop =>
      have before : popped move (x :: later) = popped move later + 1 := by rw [popped, moved]
      have left : stackStep move stack x = stack.dropLast := by rw [stackStep, moved]
      have least : min (stack.length - 1 - popped move later) (stack.length - 1) =
          stack.length - (popped move later + 1) := by
        omega
      rw [if_neg (by simp), before, left, List.length_dropLast, List.dropLast_eq_take, List.take_take, least]
    | stay =>
      have before : popped move (x :: later) = popped move later := by rw [popped, moved]
      have same : stackStep move stack x = stack := by rw [stackStep, moved]
      rw [if_neg (by simp), before, same]

theorem mem_survivors {xs : List α} (kept : x ∈ survivors move xs) : x ∈ xs ∧ move x = .push := by
  induction xs with
  | nil => exact absurd kept List.not_mem_nil
  | cons first later ih =>
    rw [survivors] at kept
    by_cases stays : move first = .push ∧ Survives move later
    · rw [if_pos stays] at kept
      rcases List.mem_cons.mp kept with rfl | kept
      · exact ⟨List.mem_cons_self, stays.1⟩
      · exact ⟨List.mem_cons_of_mem _ (ih kept).1, (ih kept).2⟩
    · rw [if_neg stays] at kept
      exact ⟨List.mem_cons_of_mem _ (ih kept).1, (ih kept).2⟩

theorem stacked_eq (xs : List α) : xs.foldl (stackStep move) [] = survivors move xs := by
  rw [foldl_stackStep, List.take_nil, List.nil_append]

end Stack

end PathSegments
