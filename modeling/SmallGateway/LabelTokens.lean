import SmallGateway.Lib.Fallible
import SmallGateway.Lib.Maps
import SmallGateway.Lib.Shell
import SmallGateway.RuntimeStore
import SmallGateway.Text
import Std.Data.String.ToNat

/-!
The join tokens of a fleet that the operator starts (`controllers/helpers.go` and `tokenSelectScript` in
`controllers/llmgateway_controller.go` of the operator, `parse_label_token` and the flags in
`gatewayctl/src/main.rs`). The operator writes the labels of a resource into a shell command, once for each data plane;
the control plane reads them back from its arguments. The characters that the operator refuses do not cover the sign
between a key and its value, nor all the white space that the control plane trims: what the two sides agree on is said
by `tokens_agree_iff`.
-/

namespace SmallGateway

/-! ### The operator -/

/-- The data planes of a resource. -/
structure DataPlanesSpec where
  replicas : Option Int
  labels : Labels

/-- How many data planes a resource has, at least one, and their labels. -/
def dataPlaneTopology (dataPlanes : Option DataPlanesSpec) : Nat × Labels :=
  let (replicas, labels) :=
    match dataPlanes with
    | none => (1, ∅)
    | some spec => (spec.replicas.getD 1, spec.labels)
  (if replicas < 1 then 1 else replicas.toNat, labels)

theorem dataPlaneTopology_pos (dataPlanes : Option DataPlanesSpec) : 0 < (dataPlaneTopology dataPlanes).1 := by
  have positive (replicas : Int) : 0 < if replicas < 1 then 1 else replicas.toNat := by
    split <;> omega
  cases dataPlanes with
  | none => exact positive 1
  | some spec => exact positive (spec.replicas.getD 1)

namespace LabelTokens

def refusedChars : List Char := ",:'\"\\$` \t\n".toList

/-- A text that the operator does not write into a label. -/
def refused (text : String) : Bool := text == "" || text.toList.any (refusedChars.contains ·)

/-- One label as the control plane is to read it. -/
def labelPart (label : String × String) : Except String String :=
  if refused label.1 || refused label.2 then
    .error ("label " ++ Text.debugStr label.1 ++ "=" ++ Text.debugStr label.2 ++
      " contains characters the token grammar does not accept")
  else .ok (label.1 ++ "=" ++ label.2)

/-- The labels by key, with commas between them. -/
def labelTokenSpec (labels : Labels) : Except String String :=
  if labels.isEmpty then .ok "" else (labels.toList.mapM labelPart).map (String.intercalate ",")

/-- What the secret of a data plane ends in. -/
def suffix (ordinal : Nat) : String := if ordinal = 0 then "" else "-" ++ Nat.repr (ordinal + 1)

def ctlCommand (dataPlanes : Option DataPlanesSpec) : String :=
  let (replicas, labels) := dataPlaneTopology dataPlanes
  -- The tokens of labels that are not accepted have none.
  let labelSpec := (labelTokenSpec labels).toOption.getD ""
  "exec /usr/local/bin/gatewayctl --repo /repo --listen 0.0.0.0:6187 --status-listen 0.0.0.0:6186" ++
    String.join ((List.range replicas).map fun i =>
      " --label-token '" ++ labelSpec ++ ":'\"$GATEWAY_JOIN_TOKEN\"" ++ suffix i)

/-- The name that a stateful set gives the pod of an ordinal. -/
def podName (name : String) (ordinal : Nat) : String := name ++ "-" ++ Nat.repr ordinal

/-- The secret that a pod presents, for a name that ends in a numeral. -/
def tokenSelect (pod token : String) : Option String :=
  let ord := ((Text.rsplitOnce '-' pod.toList).map (·.2)).getD pod.toList
  if ord = ['0'] then some token
  else (String.ofList ord).toNat?.map fun ordinal => token ++ "-" ++ Nat.repr (ordinal + 1)

/-- The secret of the fleet: what is stored stays, and random bytes are written as hexadecimal digits otherwise. -/
def ensureJoinSecret (stored : Option String) (buf : List UInt8) : String :=
  stored.getD (String.ofList
    (buf.flatMap fun byte => [Nat.digitChar (byte.toNat / 16), Nat.digitChar (byte.toNat % 16)]))

/-! ### The control plane -/

def insertLabel (labels : Labels) (pair : String) : Except String Labels :=
  match Text.splitOnce '=' pair.toList with
  | none => .error "--label-token label must be key=value"
  | some (key, value) => .ok (labels.insert (Text.trim (String.ofList key)) (Text.trim (String.ofList value)))

/-- The labels and the secret of an argument, with the problem that the usage is shown for otherwise. -/
def parseLabelToken (arg : String) : Except String (Labels × String) :=
  match Text.rsplitOnce ':' arg.toList with
  | none => .error "--label-token must be <k=v,...>:<secret>"
  | some (labels, secret) =>
    if Text.isBlank (String.ofList secret) then .error "--label-token has an empty token secret"
    else
      let pairs := ((labels.splitOn ',').map String.ofList).filter fun pair => !Text.isBlank pair
      (pairs.foldlM insertLabel ∅).map fun labels => (labels, String.ofList secret)

end LabelTokens

structure Flags where
  repo : Option String
  gitRepo : Option String
  gitRef : Option String
  listen : Option String
  statusListen : Option String
  joinToken : Option String
  tokenTtl : Option Nat
  pollSecs : Option Nat
  reconcileSecs : Option Nat
  pushRaw : Option String
  breakGlassFile : Option String
  labelTokens : List (Labels × String)

namespace Flags

def default : Flags := ⟨none, none, none, none, none, none, none, none, none, none, none, []⟩

/-- A flag's value in whole seconds. -/
def seconds (value problem : String) : Except String Nat :=
  match Text.parseU64 value with
  | none => .error problem
  | some secs => .ok secs

def set (f : Flags) (flag value : String) : Except String Flags :=
  if flag = "--repo" then .ok { f with repo := some value }
  else if flag = "--git-repo" then .ok { f with gitRepo := some value }
  else if flag = "--git-ref" then .ok { f with gitRef := some value }
  else if flag = "--listen" then .ok { f with listen := some value }
  else if flag = "--status-listen" then .ok { f with statusListen := some value }
  else if flag = "--join-token" then .ok { f with joinToken := some value }
  else if flag = "--push-raw" then .ok { f with pushRaw := some value }
  else if flag = "--break-glass-file" then .ok { f with breakGlassFile := some value }
  else if flag = "--label-token" then
    (LabelTokens.parseLabelToken value).map fun token => { f with labelTokens := f.labelTokens ++ [token] }
  else if flag = "--token-ttl" then
    (seconds value "--token-ttl takes whole seconds").map fun secs => { f with tokenTtl := some secs }
  else if flag = "--poll-interval" then
    (seconds value "--poll-interval takes whole seconds (0 disables)").map fun secs => { f with pollSecs := some secs }
  else if flag = "--reconcile-interval" then
    (seconds value "--reconcile-interval takes whole seconds (0 disables)").map fun secs =>
      { f with reconcileSecs := some secs }
  else .error ("unknown flag " ++ flag)

/-- The arguments after those that were read. -/
def parseFrom : Flags → List String → Except String Flags
  | f, [] => .ok f
  | _, [arg] => .error ("dangling argument " ++ Text.debugStr arg)
  | f, flag :: value :: rest => (f.set flag value).bind fun f => parseFrom f rest

def parse (args : List String) : Except String Flags := parseFrom default args

end Flags

namespace LabelTokens

/-- The environment of the control plane's shell: the secret of the fleet, and nothing else that the command names. -/
def environment (secret : String) (name : List Char) : List Char :=
  if name = "GATEWAY_JOIN_TOKEN".toList then secret.toList else []

/-- The label tokens of the control plane that the command starts, nothing where it does not start. The shell is replaced
    by the program that the first argument names. -/
def labelTokens (secret : String) (dataPlanes : Option DataPlanesSpec) : Option (List (Labels × String)) :=
  match Shell.words (environment secret) (ctlCommand dataPlanes).toList with
  | some (_ :: _ :: args) => ((Flags.parse (args.map String.ofList)).map Flags.labelTokens).toOption
  | _ => none

/-- There is one token for each ordinal, with the secret that its pod selects and the labels of the resource. -/
def Agree (name secret : String) (dataPlanes : Option DataPlanesSpec) (tokens : List (Labels × String)) : Prop :=
  tokens.map (fun token => (token.1.toList, some token.2)) =
      (List.range (dataPlaneTopology dataPlanes).1).map (fun ordinal =>
        ((dataPlaneTopology dataPlanes).2.toList, tokenSelect (podName name ordinal) secret)) ∧
    (tokens.map Prod.snd).Nodup

/-- What both sides read alike: keys without the sign after them, texts without white space around them, and a secret
    without the sign before it. -/
structure Carried (labels : Labels) (secret : String) : Prop where
  keys : ∀ label ∈ labels.toList, '=' ∉ label.1.toList
  texts : ∀ label ∈ labels.toList, ∀ text ∈ [label.1, label.2], Text.trim text = text ∧ Shell.nul ∉ text.toList
  secret : ':' ∉ secret.toList ∧ Text.isBlank secret = false

/-! ### What the operator writes -/

theorem refused_spec {text : String} (accepted : refused text = false) {c : Char} (inside : c ∈ text.toList) :
    c ∉ refusedChars := by
  intro listed
  have found : text.toList.any (refusedChars.contains ·) = true :=
    List.any_eq_true.mpr ⟨c, inside, List.contains_iff_mem.mpr listed⟩
  rw [refused, found, Bool.or_true] at accepted
  cases accepted

/-- What the operator writes for a label. -/
def written (label : String × String) : List Char := label.1.toList ++ '=' :: label.2.toList

theorem labelPart_ok {label : String × String} {part : String} (accepted : labelPart label = .ok part) :
    part.toList = written label ∧ refused label.1 = false ∧ refused label.2 = false := by
  unfold labelPart at accepted
  split at accepted
  · cases accepted
  · rename_i kept
    rw [Bool.or_eq_true, not_or, Bool.not_eq_true, Bool.not_eq_true] at kept
    refine ⟨?_, kept⟩
    rw [← Except.ok.inj accepted]
    simp [written]

theorem mapM_labelPart {labels : List (String × String)} {parts : List String}
    (accepted : labels.mapM labelPart = .ok parts) :
    parts.map String.toList = labels.map written ∧
      ∀ label ∈ labels, refused label.1 = false ∧ refused label.2 = false := by
  induction labels generalizing parts with
  | nil =>
    cases accepted
    exact ⟨rfl, List.forall_mem_nil _⟩
  | cons label labels ih =>
    obtain ⟨part, others, first, rest, rfl⟩ := Fallible.mapM_cons_ok.mp accepted
    obtain ⟨text, kept⟩ := labelPart_ok first
    obtain ⟨texts, keptToo⟩ := ih rest
    exact ⟨by rw [List.map_cons, List.map_cons, text, texts], List.forall_mem_cons.mpr ⟨kept, keptToo⟩⟩

/-- What the operator writes for labels that it accepts. -/
theorem labelTokenSpec_ok {labels : Labels} {spec : String} (accepted : labelTokenSpec labels = .ok spec) :
    spec.toList = [','].intercalate (labels.toList.map written) ∧
      ∀ label ∈ labels.toList, refused label.1 = false ∧ refused label.2 = false := by
  unfold labelTokenSpec at accepted
  split at accepted
  · rename_i empty
    rw [← Std.TreeMap.isEmpty_toList, List.isEmpty_iff] at empty
    rw [← Except.ok.inj accepted, empty]
    exact ⟨rfl, List.forall_mem_nil _⟩
  · obtain ⟨parts, mapped, rfl⟩ := Fallible.map_ok.mp accepted
    obtain ⟨texts, kept⟩ := mapM_labelPart mapped
    refine ⟨?_, kept⟩
    rw [String.toList_intercalate, texts]
    rfl

theorem mem_intercalate {separator c : Char} {parts : List (List Char)} (inside : c ∈ [separator].intercalate parts) :
    c = separator ∨ ∃ part ∈ parts, c ∈ part := by
  induction parts with
  | nil => cases inside
  | cons first rest ih =>
    cases rest with
    | nil => exact .inr ⟨first, List.mem_cons_self .., by simpa using inside⟩
    | cons second rest =>
      rw [List.intercalate_cons_cons, List.append_assoc, List.mem_append, List.mem_append, List.mem_singleton] at inside
      rcases inside with here | rfl | later
      · exact .inr ⟨first, List.mem_cons_self .., here⟩
      · exact .inl rfl
      · exact (ih later).imp_right fun ⟨part, listed, inside⟩ => ⟨part, List.mem_cons_of_mem _ listed, inside⟩

theorem mem_intercalate_of_mem (separator : Char) {parts : List (List Char)} {part : List Char} (listed : part ∈ parts)
    {c : Char} (inside : c ∈ part) : c ∈ [separator].intercalate parts := by
  induction parts with
  | nil => cases listed
  | cons first rest ih =>
    cases rest with
    | nil =>
      obtain rfl := List.mem_singleton.mp listed
      simpa using inside
    | cons second rest =>
      rw [List.intercalate_cons_cons, List.append_assoc, List.mem_append, List.mem_append]
      rcases List.mem_cons.mp listed with rfl | later
      · exact .inl inside
      · exact .inr (.inr (ih later))

/-- No character that the operator refuses is in what it writes, but for the separators. -/
theorem labelTokenSpec_chars {labels : Labels} {spec : String} (accepted : labelTokenSpec labels = .ok spec) {c : Char}
    (inside : c ∈ spec.toList) : c = ',' ∨ c ∉ refusedChars := by
  obtain ⟨text, kept⟩ := labelTokenSpec_ok accepted
  rw [text] at inside
  rcases mem_intercalate inside with comma | ⟨part, listed, inPart⟩
  · exact .inl comma
  · obtain ⟨label, present, rfl⟩ := List.mem_map.mp listed
    obtain ⟨keptKey, keptValue⟩ := kept label present
    rw [written, List.mem_append, List.mem_cons] at inPart
    rcases inPart with inKey | rfl | inValue
    · exact .inr (refused_spec keptKey inKey)
    · exact .inr (by decide)
    · exact .inr (refused_spec keptValue inValue)

/-! ### What the shell makes of it -/

def commandWord (text : String) : List Shell.Piece := [.plain text.toList]

/-- The flags of the command before the tokens. -/
def commandFlags : List String :=
  ["--repo", "/repo", "--listen", "0.0.0.0:6187", "--status-listen", "0.0.0.0:6186"]

/-- The words of the command before the tokens, after the first. -/
def commandStart : List String := "/usr/local/bin/gatewayctl" :: commandFlags

/-- The labels, and the secret with its ending. -/
def tokenWord (labelSpec : String) (ordinal : Nat) : List Shell.Piece :=
  [.single (labelSpec.toList ++ [':']), .parameter "GATEWAY_JOIN_TOKEN".toList, .plain (suffix ordinal).toList]

/-- The two words of one token. -/
def tokenWords (labelSpec : String) (ordinal : Nat) : List (List Shell.Piece) :=
  [commandWord "--label-token", tokenWord labelSpec ordinal]

theorem ctlCommand_eq {dataPlanes : Option DataPlanesSpec} {spec : String}
    (accepted : labelTokenSpec (dataPlaneTopology dataPlanes).2 = .ok spec) :
    (ctlCommand dataPlanes).toList = Shell.writeCommand (commandWord "exec")
      (commandStart.map commandWord ++
        (List.range (dataPlaneTopology dataPlanes).1).flatMap fun i => tokenWords spec i) := by
  have start : "exec /usr/local/bin/gatewayctl --repo /repo --listen 0.0.0.0:6187 --status-listen 0.0.0.0:6186".toList =
      Shell.writeCommand (commandWord "exec") (commandStart.map commandWord) := by
    decide
  have quoted (ordinal : Nat) :
      (" --label-token '" ++ spec ++ ":'\"$GATEWAY_JOIN_TOKEN\"" ++ suffix ordinal).toList =
        (tokenWords spec ordinal).flatMap fun word => ' ' :: Shell.writeWord word := by
    have front : " --label-token '".toList =
        ' ' :: Shell.writeWord (commandWord "--label-token") ++ [' ', Shell.apostrophe] := by decide
    have back : ":'\"$GATEWAY_JOIN_TOKEN\"".toList =
        [':', Shell.apostrophe] ++ Shell.Piece.write (.parameter "GATEWAY_JOIN_TOKEN".toList) := by decide
    simp only [String.toList_append, front, back, tokenWords, tokenWord, List.flatMap_cons, List.flatMap_nil,
      Shell.writeWord, Shell.Piece.write, List.append_assoc, List.cons_append, List.nil_append, List.append_nil]
  have command (text : String)
      (read : text.toList = Shell.writeCommand (commandWord "exec") (commandStart.map commandWord)) :
      (text ++ String.join ((List.range (dataPlaneTopology dataPlanes).1).map fun ordinal =>
        " --label-token '" ++ spec ++ ":'\"$GATEWAY_JOIN_TOKEN\"" ++ suffix ordinal)).toList =
      Shell.writeCommand (commandWord "exec") (commandStart.map commandWord ++
        (List.range (dataPlaneTopology dataPlanes).1).flatMap fun i => tokenWords spec i) := by
    rw [Shell.writeCommand_append, ← read, String.toList_append, String.toList_join, List.flatMap_map,
      List.flatMap_assoc, List.append_cancel_left_eq]
    exact List.flatMap_congr fun ordinal _ => quoted ordinal
  unfold ctlCommand
  dsimp only
  rw [accepted]
  exact command _ start

theorem suffix_chars {ordinal : Nat} {c : Char} (inside : c ∈ (suffix ordinal).toList) :
    c = '-' ∨ c.isDigit = true := by
  unfold suffix at inside
  split at inside
  · cases inside
  · rw [String.toList_append, List.mem_append] at inside
    exact inside.imp List.mem_singleton.mp Text.isDigit_of_mem_repr

theorem suffix_plain (ordinal : Nat) : ∀ c ∈ (suffix ordinal).toList, Shell.isPlain c = true := by
  intro c inside
  rcases suffix_chars inside with rfl | digit
  · decide
  · simp [Shell.isPlain, Char.isAlphanum, digit]

/-- The arguments that the tokens of the ordinals come to. -/
def tokenArgs (spec secret : String) (replicas : Nat) : List String :=
  (List.range replicas).map fun ordinal => spec ++ ":" ++ (secret ++ suffix ordinal)

theorem readWord_commandWord (secret text : String) :
    Shell.readWord (environment secret) (commandWord text) = text.toList := by
  simp [Shell.readWord, commandWord, Shell.Piece.read]

/-- A text of plain characters. -/
def isPlainText (text : String) : Bool := text != "" && text.toList.all Shell.isPlain

theorem commandWord_wellFormed {text : String} (plain : isPlainText text = true) :
    Shell.WellFormed (commandWord text) := by
  rw [isPlainText, Bool.and_eq_true, bne_iff_ne, List.all_eq_true] at plain
  refine ⟨fun piece listed => ?_, ?_⟩
  · obtain rfl := List.mem_singleton.mp listed
    exact plain.2
  · simpa [Shell.writeWord, commandWord, Shell.Piece.write] using plain.1

theorem commandStart_wellFormed : ∀ word ∈ commandStart.map commandWord, Shell.WellFormed word := by
  have plain : ∀ text ∈ commandStart, isPlainText text = true := by decide
  intro word listed
  obtain ⟨text, present, rfl⟩ := List.mem_map.mp listed
  exact commandWord_wellFormed (plain text present)

theorem joinTokenVariable_wellFormed : (Shell.Piece.parameter "GATEWAY_JOIN_TOKEN".toList).WellFormed := by
  have letters : "GATEWAY_JOIN_TOKEN".toList.all (fun c => c.isAlpha || c == '_') = true := by decide
  refine ⟨by decide, fun before c after parts => ?_⟩
  have letter := List.all_eq_true.mp letters c (by rw [parts]; exact List.mem_append_right _ (List.mem_cons_self ..))
  rw [Shell.isName, Bool.or_eq_true]
  exact .inl (by simpa using letter)

/-- What the operator writes stands within its quotes. -/
theorem tokenWords_wellFormed {labels : Labels} {spec : String} (accepted : labelTokenSpec labels = .ok spec)
    (carried : Shell.nul ∉ spec.toList) (ordinal : Nat) : ∀ word ∈ tokenWords spec ordinal, Shell.WellFormed word := by
  have quoted : Shell.apostrophe ∉ spec.toList := by
    intro inside
    rcases labelTokenSpec_chars accepted inside with comma | kept
    · exact absurd comma (by decide)
    · exact kept (by decide)
  rw [tokenWords, List.forall_mem_cons, List.forall_mem_singleton]
  refine ⟨commandWord_wellFormed (by decide), ?_, by simp [tokenWord, Shell.writeWord, Shell.Piece.write]⟩
  rw [tokenWord, List.forall_mem_cons, List.forall_mem_cons, List.forall_mem_singleton]
  refine ⟨⟨?_, ?_⟩, joinTokenVariable_wellFormed, suffix_plain ordinal⟩
  · rw [List.mem_append, not_or]
    exact ⟨quoted, by decide⟩
  · rw [List.mem_append, not_or]
    exact ⟨carried, by decide⟩

theorem readWord_tokenWords (secret spec : String) (ordinal : Nat) :
    (tokenWords spec ordinal).map (Shell.readWord (environment secret)) =
      ["--label-token", spec ++ ":" ++ (secret ++ suffix ordinal)].map String.toList := by
  have named : environment secret "GATEWAY_JOIN_TOKEN".toList = secret.toList := if_pos rfl
  simp only [tokenWords, tokenWord, List.map_cons, List.map_nil, Shell.readWord, List.flatMap_cons,
    List.flatMap_nil, Shell.Piece.read, named, List.append_nil, String.toList_append, List.append_assoc]
  rfl

/-- The words of the command, where no label has the character that ends an argument. -/
theorem words_ctlCommand (secret : String) {dataPlanes : Option DataPlanesSpec} {spec : String}
    (accepted : labelTokenSpec (dataPlaneTopology dataPlanes).2 = .ok spec) (carried : Shell.nul ∉ spec.toList) :
    Shell.words (environment secret) (ctlCommand dataPlanes).toList =
      some (("exec" :: (commandStart ++ (tokenArgs spec secret (dataPlaneTopology dataPlanes).1).flatMap
        fun arg => ["--label-token", arg])).map String.toList) := by
  rw [ctlCommand_eq accepted, Shell.words_writeCommand (commandWord_wellFormed (by decide))]
  · rw [readWord_commandWord, List.map_append, List.map_map, List.map_cons, List.map_append, tokenArgs,
      List.flatMap_map, List.map_flatMap, List.map_flatMap]
    refine congrArg some (congrArg _ (congrArg₂ _ ?_ ?_))
    · exact List.map_congr_left fun text _ => readWord_commandWord secret text
    · exact List.flatMap_congr fun ordinal _ => readWord_tokenWords secret spec ordinal
  · intro word listed
    rcases List.mem_append.mp listed with start | token
    · exact commandStart_wellFormed word start
    · obtain ⟨ordinal, -, present⟩ := List.mem_flatMap.mp token
      exact tokenWords_wellFormed accepted carried ordinal word present

theorem parseFrom_labelTokens (f : Flags) (args : List String) :
    Flags.parseFrom f (args.flatMap fun arg => ["--label-token", arg]) =
      (args.mapM parseLabelToken).map fun tokens => { f with labelTokens := f.labelTokens ++ tokens } := by
  induction args generalizing f with
  | nil => simp [Flags.parseFrom, pure, Except.pure, Except.map]
  | cons arg rest ih =>
    have set : f.set "--label-token" arg =
        (parseLabelToken arg).map fun token => { f with labelTokens := f.labelTokens ++ [token] } := by
      simp [Flags.set]
    rw [List.flatMap_cons, List.cons_append, List.cons_append, List.nil_append, Flags.parseFrom, set, List.mapM_cons]
    cases parseLabelToken arg with
    | error problem => rfl
    | ok token =>
      simp only [Except.map, Except.bind, ih, bind, pure, Except.pure]
      cases rest.mapM parseLabelToken with
      | error problem => rfl
      | ok tokens => simp

theorem labelTokens_of_words {secret : String} {dataPlanes : Option DataPlanesSpec} {first program : String}
    {args : List String} (split : Shell.words (environment secret) (ctlCommand dataPlanes).toList =
      some ((first :: program :: args).map String.toList)) :
    labelTokens secret dataPlanes = ((Flags.parse args).map Flags.labelTokens).toOption := by
  have same : (args.map String.toList).map String.ofList = args := by simp [Function.comp_def]
  unfold labelTokens
  rw [split, List.map_cons, List.map_cons]
  dsimp only
  rw [same]

theorem parse_commandFlags (args : List String) : Flags.parse (commandFlags ++ args) =
    Flags.parseFrom
      { Flags.default with repo := some "/repo", listen := some "0.0.0.0:6187", statusListen := some "0.0.0.0:6186" }
      args := by
  simp [Flags.parse, commandFlags, Flags.parseFrom, Flags.set, Except.bind, Flags.default]

/-- The tokens of the control plane are those that its arguments after the first ones say. -/
theorem labelTokens_eq (secret : String) {dataPlanes : Option DataPlanesSpec} {spec : String}
    (accepted : labelTokenSpec (dataPlaneTopology dataPlanes).2 = .ok spec) (carried : Shell.nul ∉ spec.toList) :
    labelTokens secret dataPlanes =
      ((tokenArgs spec secret (dataPlaneTopology dataPlanes).1).mapM parseLabelToken).toOption := by
  have tokens : labelTokens secret dataPlanes = ((Flags.parse (commandFlags ++
      (tokenArgs spec secret (dataPlaneTopology dataPlanes).1).flatMap fun arg => ["--label-token", arg])).map
        Flags.labelTokens).toOption := labelTokens_of_words (words_ctlCommand secret accepted carried)
  rw [tokens, parse_commandFlags, parseFrom_labelTokens]
  cases (tokenArgs spec secret (dataPlaneTopology dataPlanes).1).mapM parseLabelToken with
  | error problem => rfl
  | ok tokens => rfl

/-- A command with a character that ends an argument starts nothing. -/
theorem labelTokens_of_nul (secret : String) {dataPlanes : Option DataPlanesSpec} {spec : String}
    (accepted : labelTokenSpec (dataPlaneTopology dataPlanes).2 = .ok spec) (ends : Shell.nul ∈ spec.toList) :
    labelTokens secret dataPlanes = none := by
  have present : Shell.nul ∈ (ctlCommand dataPlanes).toList := by
    have listed : tokenWord spec 0 ∈ commandStart.map commandWord ++
        (List.range (dataPlaneTopology dataPlanes).1).flatMap fun i => tokenWords spec i := by
      refine List.mem_append_right _ (List.mem_flatMap.mpr ⟨0, ?_, ?_⟩)
      · exact List.mem_range.mpr (dataPlaneTopology_pos dataPlanes)
      · exact List.mem_cons_of_mem _ (List.mem_cons_self ..)
    rw [ctlCommand_eq accepted]
    refine Shell.mem_writeCommand _ listed (List.mem_cons_self ..) ?_
    exact List.mem_cons_of_mem _ (List.mem_append_left _ (List.mem_append_left _ ends))
  have refusal : Shell.words (environment secret) (ctlCommand dataPlanes).toList = none := Shell.words_of_nul present
  unfold labelTokens
  rw [refusal]

/-! ### What the control plane reads -/

theorem insertLabel_written {label : String × String} (labels : Labels) (key : '=' ∉ label.1.toList) :
    insertLabel labels (String.ofList (written label)) =
      .ok (labels.insert (Text.trim label.1) (Text.trim label.2)) := by
  rw [insertLabel, String.toList_ofList, written, Text.splitOnce_append key]
  simp only [String.ofList_toList]

theorem written_not_blank (label : String × String) : Text.isBlank (String.ofList (written label)) = false := by
  rw [Text.isBlank, String.toList_ofList, List.all_eq_false]
  exact ⟨'=', List.mem_append_right _ (List.mem_cons_self ..), by decide⟩

theorem foldlM_written (labels : Labels) {entries : List (String × String)}
    (keys : ∀ label ∈ entries, '=' ∉ label.1.toList)
    (texts : ∀ label ∈ entries, ∀ text ∈ [label.1, label.2], Text.trim text = text) :
    (entries.map fun label => String.ofList (written label)).foldlM insertLabel labels =
      .ok (entries.foldl (fun labels label => labels.insert label.1 label.2) labels) := by
  induction entries generalizing labels with
  | nil => rfl
  | cons label rest ih =>
    have trimmed := texts label (List.mem_cons_self ..)
    rw [List.map_cons, List.foldlM_cons, insertLabel_written labels (keys label (List.mem_cons_self ..)),
      trimmed label.1 (by simp), trimmed label.2 (by simp)]
    exact ih _ (fun other later => keys other (List.mem_cons_of_mem _ later))
      fun other later => texts other (List.mem_cons_of_mem _ later)

/-- The labels of a map, entered one after another. -/
def reentered (labels : Labels) : Labels :=
  labels.toList.foldl (fun labels label => labels.insert label.1 label.2) ∅

theorem reentered_toList (labels : Labels) : (reentered labels).toList = labels.toList := by
  refine Std.TreeMap.Equiv.toList_eq (Std.TreeMap.Equiv.of_forall_constGet?_eq fun key => ?_)
  refine (Maps.getElem?_foldl_insert_toList ∅ labels key).trans ?_
  rw [Std.TreeMap.getElem?_emptyc, Option.or_none]

/-- An argument that the operator writes for labels that both sides read alike. -/
theorem parseLabelToken_written {labels : Labels} {spec secret text : String}
    (accepted : labelTokenSpec labels = .ok spec) (carried : Carried labels secret) (last : ':' ∉ text.toList)
    (nonblank : Text.isBlank text = false) :
    parseLabelToken (spec ++ ":" ++ text) = .ok (reentered labels, text) := by
  obtain ⟨joined, kept⟩ := labelTokenSpec_ok accepted
  have parts : Text.rsplitOnce ':' (spec ++ ":" ++ text).toList = some (spec.toList, text.toList) := by
    have text : (spec ++ ":" ++ text).toList = spec.toList ++ ':' :: text.toList := by
      rw [String.toList_append, String.toList_append, List.append_assoc]
      rfl
    rw [text, Text.rsplitOnce_append _ last]
  have pairs : ((spec.toList.splitOn ',').map String.ofList).filter (fun pair => !Text.isBlank pair) =
      labels.toList.map fun label => String.ofList (written label) := by
    cases entries : labels.toList with
    | nil =>
      -- Without labels there is one part, which is blank.
      rw [joined, entries]
      rfl
    | cons first rest =>
      have split : spec.toList.splitOn ',' = labels.toList.map written := by
        rw [joined]
        refine List.splitOn_intercalate ',' (fun part listed => ?_) (by simp [entries])
        obtain ⟨label, present, rfl⟩ := List.mem_map.mp listed
        obtain ⟨keptKey, keptValue⟩ := kept label present
        rw [written, List.mem_append, List.mem_cons, not_or, not_or]
        exact ⟨fun inKey => refused_spec keptKey inKey (by decide), by decide,
          fun inValue => refused_spec keptValue inValue (by decide)⟩
      rw [split, entries, List.map_map]
      refine List.filter_eq_self.mpr fun pair listed => ?_
      obtain ⟨label, -, rfl⟩ := List.mem_map.mp listed
      rw [Function.comp_apply, written_not_blank]
      rfl
  unfold parseLabelToken
  rw [parts]
  dsimp only
  rw [String.ofList_toList, nonblank, pairs,
    foldlM_written ∅ carried.keys fun label listed text among => (carried.texts label listed text among).1]
  rfl

/-- A map that the control plane reads has keys without the sign after them, and texts without white space around
    them. -/
structure Trimmed (labels : Labels) : Prop where
  keys : ∀ label ∈ labels.toList, '=' ∉ label.1.toList
  texts : ∀ label ∈ labels.toList, ∀ text ∈ [label.1, label.2], Text.trim text = text

theorem insertLabel_trimmed {labels read : Labels} {pair : String} (trimmed : Trimmed labels)
    (inserted : insertLabel labels pair = .ok read) : Trimmed read := by
  unfold insertLabel at inserted
  split at inserted
  · cases inserted
  · rename_i key value split
    obtain rfl := Except.ok.inj inserted
    obtain ⟨-, first⟩ := Text.splitOnce_spec split
    have entries : ∀ label ∈ (labels.insert (Text.trim (String.ofList key)) (Text.trim (String.ofList value))).toList,
        label = (Text.trim (String.ofList key), Text.trim (String.ofList value)) ∨ label ∈ labels.toList := by
      rintro ⟨known, found⟩ listed
      rw [Std.TreeMap.mem_toList_iff_getElem?_eq_some, Std.TreeMap.getElem?_insert] at listed
      split at listed
      · rename_i same
        rw [← Std.LawfulEqCmp.compare_eq_iff_eq.mp same, Option.some.inj listed]
        exact .inl rfl
      · exact .inr (Std.TreeMap.mem_toList_iff_getElem?_eq_some.mpr listed)
    refine ⟨fun label listed => ?_, fun label listed => ?_⟩
    · rcases entries label listed with rfl | before
      · intro inside
        exact first (by simpa using Text.trim_subset inside)
      · exact trimmed.keys label before
    · rcases entries label listed with rfl | before
      · simp [Text.trim_trim]
      · exact trimmed.texts label before

theorem foldlM_trimmed {pairs : List String} {labels read : Labels} (trimmed : Trimmed labels)
    (folded : pairs.foldlM insertLabel labels = .ok read) : Trimmed read := by
  induction pairs generalizing labels with
  | nil =>
    obtain rfl := Except.ok.inj folded
    exact trimmed
  | cons pair rest ih =>
    rw [List.foldlM_cons] at folded
    obtain ⟨next, inserted, others⟩ := Fallible.bind_ok.mp folded
    exact ih (insertLabel_trimmed trimmed inserted) others

/-- What the control plane reads out of any argument. -/
theorem parseLabelToken_trimmed {arg secret : String} {read : Labels}
    (parsed : parseLabelToken arg = .ok (read, secret)) :
    Trimmed read ∧ ':' ∉ secret.toList ∧ Text.isBlank secret = false := by
  unfold parseLabelToken at parsed
  split at parsed
  · cases parsed
  · rename_i before after split
    dsimp only at parsed
    split at parsed
    · cases parsed
    · rename_i nonblank
      obtain ⟨labels, folded, same⟩ := Fallible.map_ok.mp parsed
      obtain ⟨rfl, rfl⟩ := Prod.mk.inj same
      have empty : Trimmed ∅ := ⟨by simp, by simp⟩
      refine ⟨foldlM_trimmed empty folded, ?_, Bool.eq_false_iff.mpr nonblank⟩
      rw [String.toList_ofList]
      exact Text.rsplitOnce_spec split

/-! ### The tokens of the ordinals -/

theorem tokenSelect_podName (name secret : String) (ordinal : Nat) :
    tokenSelect (podName name ordinal) secret = some (secret ++ suffix ordinal) := by
  have digits : '-' ∉ (Nat.repr ordinal).toList := Text.not_mem_repr (by decide) ordinal
  have last : Text.rsplitOnce '-' (podName name ordinal).toList = some (name.toList, (Nat.repr ordinal).toList) := by
    have text : (podName name ordinal).toList = name.toList ++ '-' :: (Nat.repr ordinal).toList := by
      rw [podName, String.toList_append, String.toList_append, List.append_assoc]
      rfl
    rw [text, Text.rsplitOnce_append _ digits]
  have zero : (Nat.repr ordinal).toList = ['0'] ↔ ordinal = 0 := by
    rw [show ['0'] = (Nat.repr 0).toList from rfl, String.toList_inj, Nat.repr_inj]
  unfold tokenSelect suffix
  rw [last]
  dsimp only [Option.map_some, Option.getD_some]
  by_cases first : ordinal = 0
  · rw [if_pos (zero.mpr first), if_pos first, String.append_empty]
  · rw [if_neg (mt zero.mp first), if_neg first, String.ofList_toList, Nat.toNat?_repr, Option.map_some,
      String.append_assoc]

/-- A secret that the operator makes up is one that both sides read alike. -/
theorem ensureJoinSecret_carried {buf : List UInt8} (random : buf ≠ []) :
    ':' ∉ (ensureJoinSecret none buf).toList ∧ Text.isBlank (ensureJoinSecret none buf) = false := by
  have digits : ∀ digit < 16, Nat.digitChar digit ≠ ':' ∧ Text.isWhitespace (Nat.digitChar digit) = false := by decide
  have halves (byte : UInt8) : byte.toNat / 16 < 16 ∧ byte.toNat % 16 < 16 := by
    have bound : byte.toNat < 256 := byte.toNat_lt
    omega
  rw [ensureJoinSecret, Option.getD_none, Text.isBlank, String.toList_ofList]
  constructor
  · intro inside
    obtain ⟨byte, -, listed⟩ := List.mem_flatMap.mp inside
    rcases List.mem_cons.mp listed with high | low
    · exact (digits _ (halves byte).1).1 high.symm
    · exact (digits _ (halves byte).2).1 (List.mem_singleton.mp low).symm
  · obtain ⟨byte, present⟩ := List.exists_mem_of_ne_nil buf random
    refine List.all_eq_false.mpr ⟨Nat.digitChar (byte.toNat / 16), ?_, ?_⟩
    · exact List.mem_flatMap.mpr ⟨byte, present, List.mem_cons_self ..⟩
    · rw [(digits _ (halves byte).1).2]
      decide

theorem suffix_injective {first second : Nat} (same : suffix first = suffix second) : first = second := by
  have nonempty (ordinal : Nat) : "-" ++ Nat.repr (ordinal + 1) ≠ "" := by
    intro empty
    simpa using congrArg String.toList empty
  unfold suffix at same
  by_cases zero : first = 0 <;> by_cases zeroToo : second = 0
  · rw [zero, zeroToo]
  · rw [if_pos zero, if_neg zeroToo] at same
    exact absurd same.symm (nonempty second)
  · rw [if_neg zero, if_pos zeroToo] at same
    exact absurd same (nonempty first)
  · rw [if_neg zero, if_neg zeroToo] at same
    have numerals := Nat.repr_inj.mp (String.append_right_inj _ |>.mp same)
    omega

/-- What the operator writes has the character that ends an argument where a label has it. -/
theorem nul_mem_iff {labels : Labels} {spec : String} (accepted : labelTokenSpec labels = .ok spec) :
    Shell.nul ∈ spec.toList ↔ ∃ label ∈ labels.toList, ∃ text ∈ [label.1, label.2], Shell.nul ∈ text.toList := by
  rw [(labelTokenSpec_ok accepted).1]
  constructor
  · intro inside
    rcases mem_intercalate inside with comma | ⟨part, listed, inPart⟩
    · exact absurd comma (by decide)
    · obtain ⟨label, present, rfl⟩ := List.mem_map.mp listed
      rw [written, List.mem_append, List.mem_cons] at inPart
      rcases inPart with inKey | equals | inValue
      · exact ⟨label, present, label.1, by simp, inKey⟩
      · exact absurd equals (by decide)
      · exact ⟨label, present, label.2, by simp, inValue⟩
  · rintro ⟨label, present, text, among, inside⟩
    refine mem_intercalate_of_mem ',' (List.mem_map_of_mem present) ?_
    rw [written, List.mem_append, List.mem_cons]
    rcases List.mem_cons.mp among with rfl | second
    · exact .inl inside
    · rw [List.mem_singleton.mp second] at inside
      exact .inr (.inr inside)

/-- The tokens of labels that both sides read alike. -/
theorem labelTokens_carried {secret : String} {dataPlanes : Option DataPlanesSpec} {spec : String}
    (accepted : labelTokenSpec (dataPlaneTopology dataPlanes).2 = .ok spec)
    (carried : Carried (dataPlaneTopology dataPlanes).2 secret) :
    labelTokens secret dataPlanes = some ((List.range (dataPlaneTopology dataPlanes).1).map fun ordinal =>
      (reentered (dataPlaneTopology dataPlanes).2, secret ++ suffix ordinal)) := by
  have started : Shell.nul ∉ spec.toList := by
    rw [nul_mem_iff accepted]
    rintro ⟨label, present, text, among, inside⟩
    exact (carried.texts label present text among).2 inside
  have each (ordinal : Nat) : parseLabelToken (spec ++ ":" ++ (secret ++ suffix ordinal)) =
      .ok (reentered (dataPlaneTopology dataPlanes).2, secret ++ suffix ordinal) := by
    refine parseLabelToken_written accepted carried (fun inside => ?_) ?_
    · rw [String.toList_append, List.mem_append] at inside
      rcases inside with inSecret | inSuffix
      · exact carried.secret.1 inSecret
      · exact absurd (suffix_chars inSuffix) (by decide)
    · obtain ⟨c, inside, visible⟩ := List.all_eq_false.mp carried.secret.2
      refine List.all_eq_false.mpr ⟨c, ?_, visible⟩
      rw [String.toList_append]
      exact List.mem_append_left _ inside
  have parsed : (List.range (dataPlaneTopology dataPlanes).1).mapM
      (parseLabelToken ∘ fun ordinal => spec ++ ":" ++ (secret ++ suffix ordinal)) =
      .ok ((List.range (dataPlaneTopology dataPlanes).1).map fun ordinal =>
        (reentered (dataPlaneTopology dataPlanes).2, secret ++ suffix ordinal)) :=
    Fallible.mapM_ok_of_forall fun ordinal _ => each ordinal
  rw [labelTokens_eq secret accepted started, tokenArgs, List.mapM_map, parsed]
  rfl

/-- What the labels and the secret are, where the tokens that the control plane reads are those of the resource. -/
theorem Agree.carried {name secret : String} {dataPlanes : Option DataPlanesSpec} {spec : String}
    {tokens : List (Labels × String)} (accepted : labelTokenSpec (dataPlaneTopology dataPlanes).2 = .ok spec)
    (read : labelTokens secret dataPlanes = some tokens) (agree : Agree name secret dataPlanes tokens) :
    Carried (dataPlaneTopology dataPlanes).2 secret := by
  have started : Shell.nul ∉ spec.toList := by
    intro ends
    rw [labelTokens_of_nul secret accepted ends] at read
    cases read
  -- There is a data plane, and the argument for the first one is read.
  obtain ⟨others, replicas⟩ := Nat.exists_eq_succ_of_ne_zero (dataPlaneTopology_pos dataPlanes).ne'
  have mapped := agree.1
  rw [replicas, List.range_succ_eq_map, List.map_cons, tokenSelect_podName] at mapped
  rw [labelTokens_eq secret accepted started, tokenArgs, replicas, List.range_succ_eq_map, List.map_cons] at read
  obtain ⟨first, rest, parsed, rfl⟩ : ∃ first rest,
      parseLabelToken (spec ++ ":" ++ (secret ++ suffix 0)) = .ok first ∧ tokens = first :: rest := by
    cases all : ((spec ++ ":" ++ (secret ++ suffix 0)) :: ((List.range others).map Nat.succ).map fun ordinal =>
        spec ++ ":" ++ (secret ++ suffix ordinal)).mapM parseLabelToken with
    | error problem =>
      rw [all] at read
      cases read
    | ok parsed =>
      rw [all] at read
      obtain ⟨first, rest, one, -, same⟩ := Fallible.mapM_cons_ok.mp all
      exact ⟨first, rest, one, (Option.some.inj read).symm.trans same⟩
  obtain ⟨labels, token⟩ := first
  obtain ⟨same, -⟩ := List.cons.inj mapped
  obtain ⟨sameLabels, sameSecret⟩ := Prod.mk.inj same
  obtain ⟨trimmed, colon, nonblank⟩ := parseLabelToken_trimmed parsed
  have own : token = secret := (Option.some.inj sameSecret).trans (String.append_empty ..)
  dsimp only at sameLabels
  rw [own] at colon nonblank
  refine ⟨sameLabels ▸ trimmed.keys, fun label listed text among => ⟨?_, fun ends => started ?_⟩, colon, nonblank⟩
  · exact trimmed.texts label (sameLabels ▸ listed) text among
  · exact (nul_mem_iff accepted).mpr ⟨label, listed, text, among, ends⟩

/-- For every resource whose labels the operator accepts, every number of data planes and every secret: the control
    plane has one token for each ordinal, with the secret that the pod of the ordinal selects and the labels of the
    resource, if and only if no key has the sign after it, no key or value has white space around it or the character
    that ends an argument, and the secret is not blank and does not have the sign before it. -/
theorem tokens_agree_iff (name secret : String) (dataPlanes : Option DataPlanesSpec) (spec : String)
    (accepted : labelTokenSpec (dataPlaneTopology dataPlanes).2 = .ok spec) :
    (∃ tokens, labelTokens secret dataPlanes = some tokens ∧ Agree name secret dataPlanes tokens) ↔
      Carried (dataPlaneTopology dataPlanes).2 secret := by
  constructor
  · rintro ⟨tokens, read, agree⟩
    exact agree.carried accepted read
  · intro carried
    refine ⟨_, labelTokens_carried accepted carried, ?_, ?_⟩
    · rw [List.map_map]
      refine List.map_congr_left fun ordinal _ => ?_
      rw [tokenSelect_podName, Function.comp_apply, reentered_toList]
    · rw [List.map_map]
      refine List.Nodup.map (fun first second same => ?_) List.nodup_range
      exact suffix_injective ((String.append_right_inj secret).mp same)

/-- Two data planes. -/
def twoDataPlanes : DataPlanesSpec := ⟨some 2, .ofList [("env", "prod"), ("region", "eu-west")]⟩

theorem twoDataPlanes_agree : ∃ tokens, labelTokens "5f3a" (some twoDataPlanes) = some tokens ∧
    Agree "gw-gatewayd" "5f3a" (some twoDataPlanes) tokens :=
  (tokens_agree_iff "gw-gatewayd" "5f3a" (some twoDataPlanes) "env=prod,region=eu-west" (by decide)).mpr
    ⟨by decide, by decide, by decide⟩

/-- A key with the sign in it that stands between a key and its value. -/
def signInKey : DataPlanesSpec := ⟨some 1, .ofList [("tier=1", "gold")]⟩

/-- The operator accepts the key, and the control plane splits it. -/
theorem signInKey_split : labelTokenSpec signInKey.labels = .ok "tier=1=gold" ∧
    ((labelTokens "5f3a" (some signInKey)).map fun tokens => tokens.map fun token => (token.1.toList, token.2)) =
      some [([("tier", "1=gold")], "5f3a")] ∧
    ¬ ∃ tokens, labelTokens "5f3a" (some signInKey) = some tokens ∧
      Agree "gw-gatewayd" "5f3a" (some signInKey) tokens := by
  have told : ((labelTokens "5f3a" (some signInKey)).map fun tokens =>
      tokens.map fun token => (token.1.toList, token.2)) = some [([("tier", "1=gold")], "5f3a")] := by
    decide +kernel
  refine ⟨by decide +kernel, told, ?_⟩
  rintro ⟨tokens, started, agree⟩
  rw [started, Option.map_some] at told
  have read : tokens.map (fun token => (token.1.toList, some token.2)) = [([("tier", "1=gold")], some "5f3a")] := by
    have both := congrArg (List.map fun token => (token.1, some token.2)) (Option.some.inj told)
    rwa [List.map_map] at both
  rw [agree.1] at read
  revert read
  decide

end LabelTokens

end SmallGateway
