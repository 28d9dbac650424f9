import SmallGateway.Lib.PathSegments

/-!
The path that a request is routed and forwarded by (`normalize_path` and `dot_segment` in `gateway-core/src/config.rs`).
A loop over the segments with a stack does what the removal of dot segments does to the text, once slashes are merged
and encoded dots are decoded (`normalize_path_normal`).
-/

namespace SmallGateway.Config

open PathSegments

inductive DotSegment
  | current
  | parent
  deriving DecidableEq

/-- The loop of `dot_segment`: the dots of a segment, `%2e` and `%2E` among them. More than two are none. -/
def countDots : Nat → List Char → Option Nat
  | dots, [] => some dots
  | dots, '.' :: rest => if dots + 1 > 2 then none else countDots (dots + 1) rest
  | dots, '%' :: '2' :: 'e' :: rest => if dots + 1 > 2 then none else countDots (dots + 1) rest
  | dots, '%' :: '2' :: 'E' :: rest => if dots + 1 > 2 then none else countDots (dots + 1) rest
  | _, _ => none

def dotSegment (seg : List Char) : Option DotSegment :=
  match countDots 0 seg with
  | some 1 => some .current
  | some 2 => some .parent
  | _ => none

/-- The segments of the path so far, and whether it is a directory. -/
structure Resolved where
  segments : List (List Char)
  trailing : Bool

def Resolved.step (seen : Resolved) (seg : List Char) : Resolved :=
  if seg = [] then seen
  else
    match dotSegment seg with
    | some .current => { seen with trailing := true }
    -- At the root there is nothing to drop.
    | some .parent => ⟨seen.segments.dropLast, true⟩
    | none => ⟨seen.segments ++ [seg], false⟩

/-- `normalize_path`. What does not start with a slash is left alone. -/
def normalizePath (path : List Char) : List Char :=
  if path.head? = some '/' then
    let seen := (path.splitOn '/').foldl Resolved.step ⟨[], false⟩
    if seen.segments = [] then ['/']
    else
      (seen.segments.flatMap fun seg => '/' :: seg) ++ if seen.trailing || path.getLast? = some '/' then ['/'] else []
  else path

/-! ### Dot segments -/

/-- What a segment does to the segments before it. -/
def move (seg : List Char) : Move :=
  match dotSegment seg with
  | some .current => .stay
  | some .parent => .pop
  | none => .push

variable {seg path : List Char} {segs : List (List Char)} {seen : Resolved} {slash : Bool}

/-- Of so many dots, some are counted already and the rest are what the segment is decoded to. -/
def Counted (dots count : Nat) (seg : List Char) : Prop :=
  dots ≤ count ∧ count ≤ 2 ∧ decodeDot seg = List.replicate (count - dots) '.'

theorem counted_dot {dots count : Nat} {dot rest : List Char} (listed : dot ∈ dotSpellings) :
    Counted dots count (dot ++ rest) ↔ Counted (dots + 1) count rest := by
  rw [Counted, Counted, decodeDot_spelling listed]
  constructor
  · rintro ⟨upTo, few, decoded⟩
    cases left : count - dots with
    | zero =>
      rw [left] at decoded
      cases decoded
    | succ more =>
      rw [left, List.replicate_succ] at decoded
      have fewer : count - (dots + 1) = more := by omega
      exact ⟨by omega, few, by rw [fewer, (List.cons.inj decoded).2]⟩
  · rintro ⟨upTo, few, decoded⟩
    have left : count - dots = count - (dots + 1) + 1 := by omega
    exact ⟨by omega, few, by rw [decoded, left, List.replicate_succ]⟩

theorem countDots_dot {dots : Nat} {dot : List Char} (listed : dot ∈ dotSpellings) (rest : List Char) :
    countDots dots (dot ++ rest) = if dots + 1 > 2 then none else countDots (dots + 1) rest := by
  simp only [dotSpellings, List.mem_cons, List.not_mem_nil, or_false] at listed
  rcases listed with rfl | rfl | rfl
  · rfl
  · rfl
  · rfl

theorem countDots_other {dots : Nat} {c : Char} {rest : List Char}
    (other : ∀ dot ∈ dotSpellings, ¬ dot <+: c :: rest) : countDots dots (c :: rest) = none := by
  rw [countDots]
  · nofun
  · intro after same
    exact (decodeDot_other other).1 (List.cons.inj same).1
  · intro after same
    exact other ['%', '2', 'e'] (by decide) ⟨after, same.symm⟩
  · intro after same
    exact other ['%', '2', 'E'] (by decide) ⟨after, same.symm⟩

theorem countDots_eq_some {dots count : Nat} (few : dots ≤ 2) :
    countDots dots seg = some count ↔ Counted dots count seg := by
  induction seg using dot_induction generalizing dots with
  | empty =>
    rw [countDots, Counted, decodeDot, Option.some.injEq]
    constructor
    · rintro rfl
      exact ⟨le_rfl, few, by rw [Nat.sub_self, List.replicate_zero]⟩
    · rintro ⟨upTo, -, decoded⟩
      have none : count - dots = 0 := by simpa using congrArg List.length decoded.symm
      omega
  | dotted dot listed rest ih =>
    rw [countDots_dot listed, counted_dot listed]
    by_cases many : dots + 1 > 2
    · rw [if_pos many]
      constructor
      · intro same
        cases same
      · rintro ⟨upTo, fewToo, -⟩
        omega
    · rw [if_neg many]
      exact ih (by omega)
  | other c rest other =>
    obtain ⟨noDot, kept⟩ := decodeDot_other other
    rw [countDots_other other, Counted, kept]
    constructor
    · intro same
      cases same
    · rintro ⟨-, -, decoded⟩
      cases left : count - dots with
      | zero =>
        rw [left] at decoded
        cases decoded
      | succ more =>
        rw [left, List.replicate_succ] at decoded
        exact absurd (List.cons.inj decoded).1 noDot

theorem dotSegment_eq_current : dotSegment seg = some .current ↔ Spelled 1 seg := by
  have counted : countDots 0 seg = some 1 ↔ Spelled 1 seg := by
    rw [countDots_eq_some (Nat.zero_le 2), Counted, decodeDot_eq_replicate]
    simp
  rw [← counted, dotSegment]
  split <;> simp_all

theorem dotSegment_eq_parent : dotSegment seg = some .parent ↔ Spelled 2 seg := by
  have counted : countDots 0 seg = some 2 ↔ Spelled 2 seg := by
    rw [countDots_eq_some (Nat.zero_le 2), Counted, decodeDot_eq_replicate]
    simp
  rw [← counted, dotSegment]
  split <;> simp_all

/-! ### The loop -/

theorem step_segments (filled : seg ≠ []) (seen : Resolved) :
    (seen.step seg).segments = stackStep move seen.segments seg := by
  rw [Resolved.step, if_neg filled, stackStep, move]
  cases dotSegment seg with
  | none => rfl
  | some dots => cases dots <;> rfl

theorem foldl_step_segments (filled : ∀ seg ∈ segs, seg ≠ []) (seen : Resolved) :
    (segs.foldl Resolved.step seen).segments = segs.foldl (stackStep move) seen.segments := by
  induction segs generalizing seen with
  | nil => rfl
  | cons seg segs ih =>
    rw [List.foldl_cons, List.foldl_cons, ih (fun other listed => filled other (List.mem_cons_of_mem _ listed)),
      step_segments (filled seg List.mem_cons_self)]

/-- Empty segments are passed over. -/
theorem foldl_step_filter (seen : Resolved) :
    (segs.filter fun seg => seg ≠ []).foldl Resolved.step seen = segs.foldl Resolved.step seen := by
  induction segs generalizing seen with
  | nil => rfl
  | cons seg segs ih =>
    by_cases empty : seg = []
    · rw [List.filter_cons_of_neg (by simpa using empty), List.foldl_cons, Resolved.step, if_pos empty, ih]
    · rw [List.filter_cons_of_pos (by simpa using empty), List.foldl_cons, List.foldl_cons, ih]

/-- A dot segment makes a directory, and any other one is kept. -/
theorem foldl_step_directory (filled : ∀ seg ∈ segs, seg ≠ []) (inhabited : segs ≠ []) (seen : Resolved) :
    (segs.foldl Resolved.step seen).segments = [] → (segs.foldl Resolved.step seen).trailing = true := by
  rcases List.eq_nil_or_concat segs with rfl | ⟨before, last, rfl⟩
  · exact absurd rfl inhabited
  · rw [List.concat_eq_append, List.foldl_append, List.foldl_cons, List.foldl_nil, Resolved.step,
      if_neg (filled last (by simp))]
    cases dotSegment last with
    | none => simp
    | some dots => cases dots <;> exact fun _ => rfl

/-- What the loop makes of a path. -/
def resolved (path : List Char) : Resolved := (segments path).foldl Resolved.step ⟨[], false⟩

theorem resolved_segments (path : List Char) : (resolved path).segments = survivors move (segments path) := by
  rw [resolved, foldl_step_segments fun seg listed => (mem_segments listed).1]
  exact stacked_eq _

/-- The segment is kept as it is. -/
structure Data (seg : List Char) : Prop where
  filled : seg ≠ []
  plain : '/' ∉ seg
  kept : dotSegment seg = none

theorem move_push : move seg = .push ↔ dotSegment seg = none := by
  rw [move]
  cases dotSegment seg with
  | none => exact iff_of_true rfl rfl
  | some dots => cases dots <;> exact ⟨nofun, nofun⟩

theorem resolved_data (listed : seg ∈ (resolved path).segments) : Data seg := by
  rw [resolved_segments] at listed
  obtain ⟨among, pushed⟩ := mem_survivors listed
  obtain ⟨filled, plain⟩ := mem_segments among
  exact ⟨filled, plain, move_push.mp pushed⟩

/-- The path ends with a slash. -/
def slashAfter (path : List Char) : Bool := path.getLast? = some '/'

theorem normalizePath_eq (rooted : path.head? = some '/') :
    normalizePath path = slashed (resolved path).segments ((resolved path).trailing || slashAfter path) ∧
      ((resolved path).segments = [] → ((resolved path).trailing || slashAfter path) = true) := by
  have loop : (path.splitOn '/').foldl Resolved.step ⟨[], false⟩ = resolved path := (foldl_step_filter _).symm
  have directory : (resolved path).segments = [] → ((resolved path).trailing || slashAfter path) = true := by
    intro empty
    by_cases none : segments path = []
    · obtain ⟨segs, inhabited, plain, rfl⟩ := exists_render rooted
      rw [segments_render plain, List.filter_eq_nil_iff] at none
      have last : segs.getLast? = some [] := by
        rw [List.getLast?_eq_some_getLast inhabited]
        exact congrArg _ (by simpa using none _ (List.getLast_mem inhabited))
      rw [slashAfter, Bool.or_eq_true]
      exact .inr (decide_eq_true ((getLast?_render plain).mpr last))
    · rw [resolved] at empty ⊢
      rw [foldl_step_directory (fun seg listed => (mem_segments listed).1) none _ empty, Bool.true_or]
  refine ⟨?_, directory⟩
  rw [normalizePath, if_pos rooted, loop]
  by_cases empty : (resolved path).segments = []
  · rw [directory empty]
    simp only [empty, if_true]
    rfl
  · simp only [if_neg empty]
    rfl

theorem foldl_step_data (data : ∀ seg ∈ segs, Data seg) (kept : List (List Char)) :
    segs.foldl Resolved.step ⟨kept, false⟩ = ⟨kept ++ segs, false⟩ := by
  induction segs generalizing kept with
  | nil => rw [List.append_nil]; rfl
  | cons seg segs ih =>
    obtain ⟨filled, -, none⟩ := data seg List.mem_cons_self
    have stepped : Resolved.step ⟨kept, false⟩ seg = ⟨kept ++ [seg], false⟩ := by
      rw [Resolved.step, if_neg filled, none]
    rw [List.foldl_cons, stepped, ih fun other listed => data other (List.mem_cons_of_mem _ listed),
      List.append_assoc, List.singleton_append]

/-- A path of kept segments is normal, the root with its slash. -/
theorem normalizePath_slashed (data : ∀ seg ∈ segs, Data seg) (root : segs = [] → slash = true) :
    normalizePath (slashed segs slash) = slashed segs slash := by
  have plain : ∀ seg ∈ segs, seg ≠ [] ∧ '/' ∉ seg :=
    fun seg listed => ⟨(data seg listed).filled, (data seg listed).plain⟩
  have rooted : (slashed segs slash).head? = some '/' := by
    cases segs with
    | nil => rw [root rfl]; rfl
    | cons seg segs => rw [slashed_cons]; rfl
  have kept : resolved (slashed segs slash) = ⟨segs, false⟩ := by
    rw [resolved, segments_slashed plain, foldl_step_data data, List.nil_append]
  have ends : slashAfter (slashed segs slash) = slash := by
    rw [slashAfter, Bool.eq_iff_iff, decide_eq_true_eq]
    exact getLast?_slashed plain root
  rw [(normalizePath_eq rooted).1, kept, ends, Bool.false_or]

/-! ### The removal of dot segments -/

theorem decodeSegment_cases (data : Data seg) : decodeSegment seg = seg ∧ seg ≠ ['.'] ∧ seg ≠ ['.', '.'] := by
  have current : ¬ decodeDot seg = ['.'] := fun decoded =>
    nomatch data.kept.symm.trans (dotSegment_eq_current.mpr (decodeDot_eq_replicate.mp decoded))
  have parent : ¬ decodeDot seg = ['.', '.'] := fun decoded =>
    nomatch data.kept.symm.trans (dotSegment_eq_parent.mpr (decodeDot_eq_replicate.mp decoded))
  refine ⟨if_neg (not_or.mpr ⟨current, parent⟩), ?_, ?_⟩
  · rintro rfl
    exact current rfl
  · rintro rfl
    exact parent rfl

/-- The removal of one segment. A dot segment at the end leaves a slash. -/
theorem removeDotsFrom_step (filled : seg ≠ []) (plain : '/' ∉ seg) (rest : List (List Char)) (slash : Bool)
    (seen : Resolved) (plainSeen : ∀ seg ∈ seen.segments, '/' ∉ seg) :
    removeDotsFrom (slashed (decodeSegment seg :: rest) slash) (render seen.segments) =
      removeDotsFrom (slashed rest (slash || ((seen.step seg).trailing && rest.isEmpty)))
        (render (seen.step seg).segments) := by
  rw [Resolved.step, if_neg filled]
  cases dots : dotSegment seg with
  | none =>
    obtain ⟨same, current, parent⟩ := decodeSegment_cases ⟨filled, plain, dots⟩
    rw [same, removeDotsFrom_data plain current parent]
    simp
  | some kind =>
    cases kind with
    | current =>
      have decoded : decodeDot seg = ['.'] := decodeDot_eq_replicate.mpr (dotSegment_eq_current.mp dots)
      have dot : decodeSegment seg = ['.'] := by rw [decodeSegment, if_pos (.inl decoded), decoded]
      rw [dot, removeDotsFrom_current, Bool.true_and]
    | parent =>
      have decoded : decodeDot seg = ['.', '.'] := decodeDot_eq_replicate.mpr (dotSegment_eq_parent.mp dots)
      have twoDots : decodeSegment seg = ['.', '.'] := by rw [decodeSegment, if_pos (.inr decoded), decoded]
      rw [twoDots, removeDotsFrom_parent, removeLast_dropLast plainSeen, Bool.true_and]

theorem step_plain (plain : '/' ∉ seg) (seen : Resolved) (plainSeen : ∀ seg ∈ seen.segments, '/' ∉ seg) :
    ∀ kept ∈ (seen.step seg).segments, '/' ∉ kept := by
  intro kept listed
  by_cases filled : seg = []
  · rw [Resolved.step, if_pos filled] at listed
    exact plainSeen kept listed
  · rw [step_segments filled, stackStep] at listed
    cases moved : move seg with
    | push =>
      rw [moved] at listed
      rcases List.mem_append.mp listed with listed | listed
      · exact plainSeen kept listed
      · rw [List.mem_singleton.mp listed]
        exact plain
    | pop =>
      rw [moved] at listed
      exact plainSeen kept (List.mem_of_mem_dropLast listed)
    | stay =>
      rw [moved] at listed
      exact plainSeen kept listed

/-- The text that is left and the text so far, at each turn of the loop. -/
theorem removeDotsFrom_foldl (plain : ∀ seg ∈ segs, seg ≠ [] ∧ '/' ∉ seg) (slash : Bool) (seen : Resolved)
    (plainSeen : ∀ seg ∈ seen.segments, '/' ∉ seg) :
    removeDotsFrom (slashed (segs.map decodeSegment) (slash || (seen.trailing && segs.isEmpty)))
        (render seen.segments) =
      slashed (segs.foldl Resolved.step seen).segments (slash || (segs.foldl Resolved.step seen).trailing) := by
  induction segs generalizing seen with
  | nil =>
    rw [List.map_nil, List.isEmpty_nil, Bool.and_true, List.foldl_nil]
    cases slash || seen.trailing with
    | false => rw [slashed_false, slashed_false, render_nil, removeDotsFrom_nil]
    | true => exact removeDotsFrom_slash
  | cons seg segs ih =>
    obtain ⟨filled, plainSeg⟩ := plain seg List.mem_cons_self
    rw [List.map_cons, List.isEmpty_cons, Bool.and_false, Bool.or_false, List.foldl_cons,
      removeDotsFrom_step filled plainSeg _ slash seen plainSeen, List.isEmpty_map]
    exact ih (fun other listed => plain other (List.mem_cons_of_mem _ listed)) (seen.step seg)
      (step_plain plainSeg seen plainSeen)

/-- The removal of dot segments keeps the segments that the loop keeps. -/
theorem removeDotSegments_eq (rooted : path.head? = some '/') :
    removeDotSegments (decodeDots (mergeSlashes path)) =
      slashed (resolved path).segments ((resolved path).trailing || slashAfter path) := by
  obtain ⟨segs, -, plain, rfl⟩ := exists_render rooted
  have merged : mergeSlashes (render segs) = slashed (segments (render segs)) (slashAfter (render segs)) := by
    rw [mergeSlashes_render plain, segments_render plain, slashAfter]
    simp only [getLast?_render plain]
  have parts : ∀ seg ∈ segments (render segs), seg ≠ [] ∧ '/' ∉ seg := fun seg listed => mem_segments listed
  have walked := removeDotsFrom_foldl parts (slashAfter (render segs)) ⟨[], false⟩
    fun seg listed => absurd listed List.not_mem_nil
  rw [Bool.false_and, Bool.or_false] at walked
  rw [merged, decodeDots_slashed fun seg listed => (parts seg listed).2, removeDotSegments, Bool.or_comm]
  exact walked

/-! ### Normal paths -/

theorem inner_filled (data : ∀ seg ∈ segs, Data seg) : [] ∉ ((slashed segs slash).splitOn '/').tail.dropLast := by
  rw [splitOn_slashed fun seg listed => (data seg listed).plain, List.tail_cons]
  intro empty
  refine (data [] ?_).filled rfl
  cases slash with
  | false =>
    rw [if_neg Bool.false_ne_true, List.append_nil] at empty
    exact List.mem_of_mem_dropLast empty
  | true =>
    rw [if_pos rfl, List.dropLast_concat] at empty
    exact empty

theorem splitOn_no_dots (data : ∀ seg ∈ segs, Data seg) :
    ∀ seg ∈ (slashed segs slash).splitOn '/', dotSegment seg = none := by
  rw [splitOn_slashed fun seg listed => (data seg listed).plain, List.forall_mem_cons, List.forall_mem_append]
  refine ⟨rfl, fun seg listed => (data seg listed).kept, fun seg listed => ?_⟩
  cases slash with
  | false =>
    rw [if_neg Bool.false_ne_true] at listed
    cases listed
  | true =>
    rw [if_pos rfl, List.mem_singleton] at listed
    rw [listed]
    rfl

/-- What is asked of the path that a path from the root is normalized to. -/
structure Normal (path normal : List Char) : Prop where
  idempotent : normalizePath normal = normal
  /-- Nothing is empty between the first slash and what comes after the last one. -/
  merged : [] ∉ (normal.splitOn '/').tail.dropLast
  no_dots : ∀ seg ∈ normal.splitOn '/', ¬ Spelled 1 seg ∧ ¬ Spelled 2 seg
  /-- Dot segments go, with what they remove, and every other one is kept. -/
  kept : segments normal = survivors move (segments path)
  /-- The removal of dot segments, after merged slashes and decoded dots. -/
  removed : normal = removeDotSegments (decodeDots (mergeSlashes path))

theorem normalize_path_normal (path : List Char) (rooted : path.head? = some '/') :
    Normal path (normalizePath path) := by
  obtain ⟨normal, root⟩ := normalizePath_eq rooted
  have data : ∀ seg ∈ (resolved path).segments, Data seg := fun seg listed => resolved_data listed
  have plain : ∀ seg ∈ (resolved path).segments, '/' ∉ seg := fun seg listed => (data seg listed).plain
  rw [normal]
  refine ⟨normalizePath_slashed data root, inner_filled data, fun seg listed => ?_, ?_,
    (removeDotSegments_eq rooted).symm⟩
  · rw [← dotSegment_eq_current, ← dotSegment_eq_parent, splitOn_no_dots data seg listed]
    exact ⟨nofun, nofun⟩
  · rw [segments_slashed fun seg listed => ⟨(data seg listed).filled, plain seg listed⟩, resolved_segments]

/-- A way up past the root, with an encoded dot. -/
theorem climbing_path_normal : Normal "/a/.%2e/../b//c".toList (normalizePath "/a/.%2e/../b//c".toList) :=
  normalize_path_normal _ rfl

end SmallGateway.Config
