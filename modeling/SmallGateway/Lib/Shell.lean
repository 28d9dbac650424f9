import Mathlib.Data.List.Basic

/-!
The words of a simple command of the POSIX shell: what stands between blanks, with text in single quotes and parameters
in double quotes. A command with anything else in it (an operator, a pattern, an escape, an expansion outside quotes) is
not split. A command that is written out of pieces is split into the words that the pieces stand for
(`words_writeCommand`).
-/

namespace Shell

def apostrophe : Char := Char.ofNat 39

def backquote : Char := Char.ofNat 96

/-- Ends every argument of a process, so that no argument has it. -/
def nul : Char := Char.ofNat 0

def isBlank (c : Char) : Bool := c = ' ' || c = '\t'

/-- The characters that stand for themselves outside quotes, anywhere in a word. -/
def isPlain (c : Char) : Bool := c.isAlphanum || c ∈ ['-', '_', '.', '/', ':', ',']

/-- The characters that go on with a name. -/
def isName (name : List Char) (c : Char) : Bool := c.isAlpha || c = '_' || (c.isDigit && !name.isEmpty)

/-- Where in a word the shell is, with what the word comes to so far. -/
inductive Mode
  | between
  | bare (word : List Char)
  | single (word : List Char)
  | double (word : List Char)
  | parameter (word name : List Char)

structure State where
  words : List (List Char)
  mode : Mode

def outside (word : List Char) (c : Char) : Option Mode :=
  if c = apostrophe then some (.single word)
  else if c = '"' then some (.double word)
  else if isPlain c then some (.bare (word ++ [c]))
  else none

def inside (word : List Char) (c : Char) : Option Mode :=
  if c = '"' then some (.bare word)
  else if c = '$' then some (.parameter word [])
  else if c = backquote ∨ c = '\\' then none
  else some (.double (word ++ [c]))

variable (env : List Char → List Char)

def step (s : State) (c : Char) : Option State :=
  if c = nul then none
  else
    match s.mode with
    | .between => if isBlank c then some s else (outside [] c).map (State.mk s.words)
    | .bare word =>
      if isBlank c then some ⟨s.words ++ [word], .between⟩ else (outside word c).map (State.mk s.words)
    | .single word => some ⟨s.words, if c = apostrophe then .bare word else .single (word ++ [c])⟩
    | .double word => (inside word c).map (State.mk s.words)
    | .parameter word name =>
      if isName name c then some ⟨s.words, .parameter word (name ++ [c])⟩
      else if name = [] then none
      else (inside (word ++ env name) c).map (State.mk s.words)

/-- The words at the end of the command, none within quotes. -/
def State.finish (s : State) : Option (List (List Char)) :=
  match s.mode with
  | .between => some s.words
  | .bare word => some (s.words ++ [word])
  | _ => none

/-- The words that a command is split into. -/
def words (command : List Char) : Option (List (List Char)) :=
  (command.foldlM (step env) ⟨[], .between⟩).bind State.finish

/-! ### Written commands -/

/-- What a word is written out of: plain text, text in single quotes, a parameter in double quotes. -/
inductive Piece
  | plain (text : List Char)
  | single (text : List Char)
  | parameter (name : List Char)

namespace Piece

def write : Piece → List Char
  | .plain text => text
  | .single text => apostrophe :: text ++ [apostrophe]
  | .parameter name => '"' :: '$' :: name ++ ['"']

def read : Piece → List Char
  | .plain text => text
  | .single text => text
  | .parameter name => env name

/-- A name is a letter or an underscore and then letters, digits and underscores. -/
def WellFormed : Piece → Prop
  | .plain text => ∀ c ∈ text, isPlain c = true
  | .single text => apostrophe ∉ text ∧ nul ∉ text
  | .parameter name => name ≠ [] ∧ ∀ before c after, name = before ++ c :: after → isName before c = true

end Piece

def writeWord (word : List Piece) : List Char := word.flatMap Piece.write

def readWord (word : List Piece) : List Char := word.flatMap (Piece.read env)

/-- A word that is written at all. -/
structure WellFormed (word : List Piece) : Prop where
  pieces : ∀ piece ∈ word, piece.WellFormed
  written : writeWord word ≠ []

def writeCommand (first : List Piece) (rest : List (List Piece)) : List Char :=
  writeWord first ++ rest.flatMap fun word => ' ' :: writeWord word

variable {env}

theorem writeCommand_append (first : List Piece) (rest more : List (List Piece)) :
    writeCommand first (rest ++ more) = writeCommand first rest ++ more.flatMap fun word => ' ' :: writeWord word := by
  rw [writeCommand, writeCommand, List.flatMap_append, List.append_assoc]

theorem mem_writeCommand (first : List Piece) {rest : List (List Piece)} {word : List Piece} (listed : word ∈ rest)
    {piece : Piece} (part : piece ∈ word) {c : Char} (inside : c ∈ piece.write) : c ∈ writeCommand first rest := by
  refine List.mem_append_right _ (List.mem_flatMap.mpr ⟨word, listed, List.mem_cons_of_mem _ ?_⟩)
  exact List.mem_flatMap.mpr ⟨piece, part, inside⟩

theorem isPlain_spec {c : Char} (plain : isPlain c = true) :
    c ≠ nul ∧ isBlank c = false ∧ ∀ word, outside word c = some (.bare (word ++ [c])) := by
  have differs (other : Char) (odd : isPlain other = false) : c ≠ other := by
    rintro rfl
    rw [odd] at plain
    cases plain
  refine ⟨differs nul (by decide), ?_, fun word => ?_⟩
  · simp [isBlank, differs ' ' (by decide), differs '\t' (by decide)]
  · rw [outside, if_neg (differs apostrophe (by decide)), if_neg (differs '"' (by decide)), if_pos plain]

theorem isName_spec {name : List Char} {c : Char} (goesOn : isName name c = true) : c ≠ nul := by
  rintro rfl
  have letter : nul.isAlpha = false := rfl
  have digit : nul.isDigit = false := rfl
  simp [isName, letter, digit, show nul ≠ '_' by decide] at goesOn

theorem foldlM_plain (words : List (List Char)) (word : List Char) {text : List Char}
    (plain : ∀ c ∈ text, isPlain c = true) :
    text.foldlM (step env) ⟨words, .bare word⟩ = some ⟨words, .bare (word ++ text)⟩ := by
  induction text generalizing word with
  | nil => simp
  | cons c rest ih =>
    obtain ⟨notNul, notBlank, goesOn⟩ := isPlain_spec (plain c (List.mem_cons_self ..))
    have stepped : step env ⟨words, .bare word⟩ c = some ⟨words, .bare (word ++ [c])⟩ := by
      simp [step, notNul, notBlank, goesOn]
    rw [List.foldlM_cons, stepped, Option.bind_eq_bind, Option.bind_some,
      ih _ fun other later => plain other (List.mem_cons_of_mem _ later), List.append_assoc, List.singleton_append]

theorem foldlM_single (words : List (List Char)) (word : List Char) {text : List Char} (quoted : apostrophe ∉ text)
    (notNul : nul ∉ text) :
    (text ++ [apostrophe]).foldlM (step env) ⟨words, .single word⟩ = some ⟨words, .bare (word ++ text)⟩ := by
  induction text generalizing word with
  | nil => simp [step, show apostrophe ≠ nul by decide]
  | cons c rest ih =>
    have stepped : step env ⟨words, .single word⟩ c = some ⟨words, .single (word ++ [c])⟩ := by
      simp [step, Ne.symm (List.ne_of_not_mem_cons notNul), Ne.symm (List.ne_of_not_mem_cons quoted)]
    rw [List.cons_append, List.foldlM_cons, stepped, Option.bind_eq_bind, Option.bind_some,
      ih _ (List.not_mem_of_not_mem_cons quoted) (List.not_mem_of_not_mem_cons notNul), List.append_assoc,
      List.singleton_append]

theorem foldlM_parameter (words : List (List Char)) (word read : List Char) {name : List Char}
    (named : ∀ before c after, name = before ++ c :: after → isName (read ++ before) c = true) :
    name.foldlM (step env) ⟨words, .parameter word read⟩ = some ⟨words, .parameter word (read ++ name)⟩ := by
  induction name generalizing read with
  | nil => simp
  | cons c rest ih =>
    have goesOn : isName read c = true := by simpa using named [] c rest rfl
    have stepped : step env ⟨words, .parameter word read⟩ c = some ⟨words, .parameter word (read ++ [c])⟩ := by
      simp [step, isName_spec goesOn, goesOn]
    rw [List.foldlM_cons, stepped, Option.bind_eq_bind, Option.bind_some, ih, List.append_assoc, List.singleton_append]
    intro before next after parts
    rw [List.append_assoc, List.singleton_append]
    exact named (c :: before) next after (by rw [parts, List.cons_append])

/-- A piece goes on with the word that it stands in. -/
theorem foldlM_piece (words : List (List Char)) (word : List Char) {piece : Piece} (wellFormed : piece.WellFormed) :
    piece.write.foldlM (step env) ⟨words, .bare word⟩ = some ⟨words, .bare (word ++ piece.read env)⟩ := by
  cases piece with
  | plain text => exact foldlM_plain words word wellFormed
  | single text =>
    have opened : step env ⟨words, .bare word⟩ apostrophe = some ⟨words, .single word⟩ := by
      simp [step, outside, show apostrophe ≠ nul by decide, show isBlank apostrophe = false by decide]
    rw [Piece.write, List.cons_append, List.foldlM_cons, opened]
    exact foldlM_single words word wellFormed.1 wellFormed.2
  | parameter name =>
    obtain ⟨nonempty, named⟩ := wellFormed
    have opened : step env ⟨words, .bare word⟩ '"' = some ⟨words, .double word⟩ := by
      simp [step, outside, show '"' ≠ nul by decide, show isBlank '"' = false by decide,
        show '"' ≠ apostrophe by decide]
    have dollar : step env ⟨words, .double word⟩ '$' = some ⟨words, .parameter word []⟩ := by
      simp [step, inside, show '$' ≠ nul by decide]
    have closed : step env ⟨words, .parameter word name⟩ '"' = some ⟨words, .bare (word ++ env name)⟩ := by
      simp [step, inside, nonempty, isName, show '"' ≠ nul by decide, show Char.isAlpha '"' = false by decide,
        show Char.isDigit '"' = false by decide]
    have read : name.foldlM (step env) ⟨words, .parameter word []⟩ = some ⟨words, .parameter word name⟩ :=
      foldlM_parameter words word [] named
    simp only [Piece.write, List.cons_append, List.foldlM_cons, opened, dollar, List.foldlM_append, read,
      Option.bind_eq_bind, Option.bind_some, closed, List.foldlM_nil, Option.pure_def, Piece.read]

theorem foldlM_pieces (words : List (List Char)) (word : List Char) {pieces : List Piece}
    (wellFormed : ∀ piece ∈ pieces, piece.WellFormed) :
    (writeWord pieces).foldlM (step env) ⟨words, .bare word⟩ = some ⟨words, .bare (word ++ readWord env pieces)⟩ := by
  induction pieces generalizing word with
  | nil => simp [writeWord, readWord]
  | cons piece rest ih =>
    have later := ih (word ++ piece.read env) fun other listed => wellFormed other (List.mem_cons_of_mem _ listed)
    rw [writeWord] at later
    rw [writeWord, List.flatMap_cons, List.foldlM_append,
      foldlM_piece words word (wellFormed piece (List.mem_cons_self ..)), Option.bind_eq_bind, Option.bind_some, later,
      readWord, readWord, List.flatMap_cons, List.append_assoc]

theorem Piece.WellFormed.head {piece : Piece} (wellFormed : piece.WellFormed) {c : Char}
    (first : c ∈ piece.write.head?) : isBlank c = false := by
  cases piece with
  | plain text => exact (isPlain_spec (wellFormed c (List.mem_of_mem_head? first))).2.1
  | single | parameter =>
    obtain rfl := Option.some.inj first
    decide

theorem head_writeWord {pieces : List Piece} (wellFormed : ∀ piece ∈ pieces, piece.WellFormed) {c : Char}
    (first : c ∈ (writeWord pieces).head?) : isBlank c = false := by
  induction pieces with
  | nil => cases first
  | cons piece rest ih =>
    rw [writeWord, List.flatMap_cons, List.head?_append, Option.mem_def, Option.or_eq_some_iff] at first
    rcases first with here | ⟨-, later⟩
    · exact (wellFormed piece (List.mem_cons_self ..)).head here
    · exact ih (fun other listed => wellFormed other (List.mem_cons_of_mem _ listed)) later

/-- A word after a blank, or at the start. -/
theorem foldlM_word (words : List (List Char)) {pieces : List Piece} (wellFormed : WellFormed pieces) :
    (writeWord pieces).foldlM (step env) ⟨words, .between⟩ = some ⟨words, .bare (readWord env pieces)⟩ := by
  have started : (writeWord pieces).foldlM (step env) ⟨words, .bare []⟩ =
      some ⟨words, .bare ([] ++ readWord env pieces)⟩ := foldlM_pieces words [] wellFormed.pieces
  have head := fun c => head_writeWord (c := c) wellFormed.pieces
  have written := wellFormed.written
  cases text : writeWord pieces with
  | nil => exact absurd text written
  | cons c rest =>
    rw [text] at started head
    -- The first character is no blank, so that the shell is in the word at once.
    have notBlank := head c rfl
    have same : step env ⟨words, .between⟩ c = step env ⟨words, .bare []⟩ c := by simp [step, notBlank]
    rw [List.foldlM_cons, same, ← List.foldlM_cons, started, List.nil_append]

theorem foldlM_words (words : List (List Char)) (last : List Char) {rest : List (List Piece)}
    (wellFormed : ∀ word ∈ rest, WellFormed word) :
    ((rest.flatMap fun word => ' ' :: writeWord word).foldlM (step env) ⟨words, .bare last⟩).bind State.finish =
      some (words ++ last :: rest.map (readWord env)) := by
  induction rest generalizing words last with
  | nil => rfl
  | cons word rest ih =>
    have blank : step env ⟨words, .bare last⟩ ' ' = some ⟨words ++ [last], .between⟩ := by
      simp [step, show isBlank ' ' = true by decide, show ' ' ≠ nul by decide]
    have later := ih (words ++ [last]) (readWord env word) fun other listed =>
      wellFormed other (List.mem_cons_of_mem _ listed)
    rw [List.flatMap_cons, List.cons_append, List.foldlM_cons, blank, Option.bind_eq_bind, Option.bind_some,
      List.foldlM_append, foldlM_word _ (wellFormed word (List.mem_cons_self ..)), Option.bind_eq_bind,
      Option.bind_some, later, List.map_cons, List.append_assoc, List.singleton_append]

/-- A command that is written out of pieces is split into what they stand for. -/
theorem words_writeCommand {first : List Piece} {rest : List (List Piece)} (wellFormed : WellFormed first)
    (others : ∀ word ∈ rest, WellFormed word) :
    words env (writeCommand first rest) = some (readWord env first :: rest.map (readWord env)) := by
  rw [words, writeCommand, List.foldlM_append, foldlM_word [] wellFormed, Option.bind_eq_bind, Option.bind_some,
    foldlM_words [] _ others, List.nil_append]

/-- No process is started with such an argument. -/
theorem words_of_nul {command : List Char} (present : nul ∈ command) : words env command = none := by
  have stuck : ∀ s : State, command.foldlM (step env) s = none := by
    induction command with
    | nil => cases present
    | cons c rest ih =>
      intro s
      rw [List.foldlM_cons]
      rcases List.mem_cons.mp present with rfl | later
      · rw [step, if_pos rfl, Option.bind_eq_bind, Option.bind_none]
      · cases step env s c with
        | none => rfl
        | some t => exact ih later t
  rw [words, stuck, Option.bind_none]

end Shell
