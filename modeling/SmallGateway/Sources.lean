import SmallGateway.ChangeDetection
import SmallGateway.Lib.Sha256

/-!
The two sources of a config repo (`gatewayctl/src/source.rs`): a directory, read in the order of the names, and a
commit, whose tree is walked. Both end in one sorted file set, in which the first file at a path counts (`new_spec`).
For the checkout of a commit the two sets are equal exactly when the directory holds no file that is not in the tree of
the commit, as those behind a symbolic link or in a submodule are not (`sources_agree_iff`).
-/

namespace SmallGateway

/-! ### Resolved file sets -/

namespace ResolvedRepo

/-- `str::replace` of backslashes by slashes. -/
def slash (path : String) : String := String.ofList (path.toList.map fun c => if c = '\\' then '/' else c)

def slashed (files : RepoFiles) : RepoFiles := files.map fun (path, bytes) => (slash path, bytes)

def get (repo : ResolvedRepo) (rel : String) : Option (List UInt8) := repo.files.lookup rel

def contains (repo : ResolvedRepo) (rel : String) : Bool := repo.files.any (·.1 == rel)

end ResolvedRepo

/-! ### Trees of files -/

/-- The entries of a directory, in the order in which they are read. An entry is tracked where the tree of the commit
    has it as a blob or as a tree; a symbolic link counts as what it leads to, and is not tracked, nor is what is in a
    submodule. What is neither a file nor a directory is `other`. -/
inductive FileTree where
  | empty
  | file (name : String) (tracked : Bool) (bytes : List UInt8) (rest : FileTree)
  | directory (name : String) (tracked : Bool) (inner rest : FileTree)
  | other (name : String) (rest : FileTree)
  deriving DecidableEq

namespace DirectorySource

/-- What each entry of a directory adds, with its name. A directory below is read in the order of its names, and a
    nested `.git` is skipped. -/
def added (base : String) : FileTree → List (String × RepoFiles)
  | .empty => []
  | .file name _ bytes rest => (name, [(ResolvedRepo.slash (base ++ name), bytes)]) :: added base rest
  | .directory name _ inner rest =>
    (name, if name = ".git" then []
      else (Sorting.sortBy (·.1) (added (base ++ name ++ "/") inner)).flatMap (·.2)) :: added base rest
  | .other _ rest => added base rest

/-- The files of a directory, with their paths from its root. -/
def collectDir (base : String) (dir : FileTree) : RepoFiles := (Sorting.sortBy (·.1) (added base dir)).flatMap (·.2)

end DirectorySource

namespace GitSource

/-- The blobs of a tree and of the trees below it. -/
def blobs (base : String) : FileTree → RepoFiles
  | .empty => []
  | .file name tracked bytes rest => if tracked then (base ++ name, bytes) :: blobs base rest else blobs base rest
  | .directory name tracked inner rest =>
    if tracked then blobs (base ++ name ++ "/") inner ++ blobs base rest else blobs base rest
  | .other _ rest => blobs base rest

/-- The repo of a commit, from the blobs that its walk records. -/
def resolve (records : RepoFiles) (sourceCommit : String) : ResolvedRepo :=
  .new (ResolvedRepo.slashed records) sourceCommit

end GitSource

namespace FileTree

/-- No tree of a commit has the name that repositories keep for themselves. -/
def noGit : FileTree → Bool
  | .empty => true
  | .file _ _ _ rest => rest.noGit
  | .directory name tracked inner rest => !(tracked && name == ".git") && inner.noGit && rest.noGit
  | .other _ rest => rest.noGit

/-- The files of a directory, each with whether it is tracked all the way to it. -/
def found (tracked : Bool) (base : String) : FileTree → List (Bool × String × List UInt8)
  | .empty => []
  | .file name own bytes rest => (tracked && own, ResolvedRepo.slash (base ++ name), bytes) :: rest.found tracked base
  | .directory name own inner rest =>
    (if name = ".git" then [] else inner.found (tracked && own) (base ++ name ++ "/")) ++ rest.found tracked base
  | .other _ rest => rest.found tracked base

/-- Every file that is found is tracked. -/
def AllTracked (tree : FileTree) : Prop := ∀ file ∈ tree.found true "", file.1 = true

instance (tree : FileTree) : Decidable tree.AllTracked :=
  inferInstanceAs (Decidable (∀ file ∈ tree.found true "", file.1 = true))

end FileTree

/-! ### What a file set resolves to -/

section

variable {files others : RepoFiles} {commit other : String}

/-- Without the files behind another one at their path, a sorted set is sorted strictly and has the same at each
    path. -/
theorem destutter_sorted {first : String × List UInt8} {rest : RepoFiles}
    (sorted : (first :: rest).Pairwise fun a b => a.1 ≤ b.1) :
    (rest.destutter' (fun a b => a.1 ≠ b.1) first).Pairwise (fun a b => a.1 < b.1) ∧
      ∀ path, (rest.destutter' (fun a b => a.1 ≠ b.1) first).lookup path = (first :: rest).lookup path := by
  induction rest generalizing first with
  | nil => exact ⟨List.pairwise_singleton _ _, fun _ => rfl⟩
  | cons second rest ih =>
    obtain ⟨below, later⟩ := List.pairwise_cons.mp sorted
    by_cases same : first.1 = second.1
    · rw [List.destutter'_cons_neg _ (not_not.mpr same)]
      have skipped : (first :: rest).Pairwise fun a b => a.1 ≤ b.1 :=
        List.pairwise_cons.mpr ⟨fun file inside => below file (List.mem_cons_of_mem _ inside),
          (List.pairwise_cons.mp later).2⟩
      obtain ⟨strict, lookups⟩ := ih skipped
      refine ⟨strict, fun path => ?_⟩
      rw [lookups path, List.lookup_cons, List.lookup_cons, List.lookup_cons, ← same]
      cases path == first.1 <;> rfl
    · rw [List.destutter'_cons_pos _ same]
      obtain ⟨strict, lookups⟩ := ih later
      refine ⟨List.pairwise_cons.mpr ⟨fun file inside => ?_, strict⟩, fun path => ?_⟩
      · have kept := (List.destutter'_sublist rest _ second).mem inside
        have least : second.1 ≤ file.1 := by
          rcases List.mem_cons.mp kept with rfl | behind
          · exact le_refl _
          · exact (List.pairwise_cons.mp later).1 file behind
        exact lt_of_lt_of_le (lt_of_le_of_ne (below second List.mem_cons_self) same) least
      · rw [List.lookup_cons, List.lookup_cons, lookups path]

theorem new_files (files : RepoFiles) (commit : String) : (ResolvedRepo.new files commit).files =
    (Sorting.sortBy (·.1) (ResolvedRepo.slashed files)).destutter fun a b => a.1 ≠ b.1 := by
  have slash (path : String) : path.map (fun c => if c = '\\' then '/' else c) = ResolvedRepo.slash path := by
    rw [← String.toList_inj, String.toList_map, ResolvedRepo.slash, String.toList_ofList]
  simp only [ResolvedRepo.new, slash]
  rfl

/-- A resolved set is sorted by path, each path once, and holds the first file at each path. -/
theorem new_spec (files : RepoFiles) (commit : String) :
    (ResolvedRepo.new files commit).files.Pairwise (fun a b => a.1 < b.1) ∧
      ∀ path, (ResolvedRepo.new files commit).files.lookup path = (ResolvedRepo.slashed files).lookup path := by
  have sorted := Sorting.sortBy_sorted (·.1) (ResolvedRepo.slashed files)
  have lookups (path : String) := Sorting.lookup_sortBy id (ResolvedRepo.slashed files) path
  rw [new_files]
  cases parts : Sorting.sortBy (·.1) (ResolvedRepo.slashed files) with
  | nil =>
    refine ⟨.nil, fun path => ?_⟩
    rw [← lookups path]
    exact congrArg (List.lookup path) parts.symm
  | cons first rest =>
    rw [parts] at sorted
    obtain ⟨strict, same⟩ := destutter_sorted sorted
    refine ⟨strict, fun path => ?_⟩
    rw [List.destutter_cons', same path, ← lookups path]
    exact congrArg (List.lookup path) parts.symm

/-- Where each path stands once, a file is there exactly when its bytes are found at its path. -/
theorem mem_iff_lookup (distinct : (files.map (·.1)).Nodup) (path : String) (bytes : List UInt8) :
    (path, bytes) ∈ files ↔ files.lookup path = some bytes := by
  induction files with
  | nil => simp
  | cons first rest ih =>
    obtain ⟨absent, later⟩ := List.nodup_cons.mp distinct
    rw [List.lookup_cons]
    by_cases same : path = first.1
    · rw [beq_iff_eq.mpr same]
      constructor
      · intro inside
        rcases List.mem_cons.mp inside with whole | behind
        · rw [← whole]
        · exact absurd (List.mem_map.mpr ⟨(path, bytes), behind, same⟩) absent
      · intro held
        exact List.mem_cons.mpr (.inl (Prod.ext same (Option.some.inj held).symm))
    · rw [beq_false_of_ne same, ← ih later]
      exact ⟨fun inside => (List.mem_cons.mp inside).resolve_left fun whole => same (congrArg (·.1) whole),
        List.mem_cons_of_mem _⟩

theorem distinct_of_strict (strict : files.Pairwise fun a b => a.1 < b.1) : (files.map (·.1)).Nodup :=
  List.pairwise_map.mpr (strict.imp ne_of_lt)

/-- Lists that are sorted strictly and have the same at each path are the same. -/
theorem eq_of_lookup (strict : files.Pairwise fun a b => a.1 < b.1) (strictToo : others.Pairwise fun a b => a.1 < b.1)
    (lookups : ∀ path, files.lookup path = others.lookup path) : files = others := by
  have distinct := distinct_of_strict strict
  have distinctToo := distinct_of_strict strictToo
  refine List.Perm.eq_of_pairwise (fun a b _ _ below above => absurd (below.trans above) (lt_irrefl _)) strict strictToo
    ((List.perm_ext_iff_of_nodup distinct.of_map distinctToo.of_map).mpr fun file => ?_)
  rw [mem_iff_lookup distinct, mem_iff_lookup distinctToo, lookups]

/-- Two file sets resolve alike exactly when, with their paths slashed, the first file at each path is the same. -/
theorem new_files_eq_iff : (ResolvedRepo.new files commit).files = (ResolvedRepo.new others other).files ↔
    ∀ path, (ResolvedRepo.slashed files).lookup path = (ResolvedRepo.slashed others).lookup path := by
  obtain ⟨strict, lookups⟩ := new_spec files commit
  obtain ⟨strictToo, lookupsToo⟩ := new_spec others other
  constructor
  · intro same path
    rw [← lookups path, same, lookupsToo path]
  · intro same
    refine eq_of_lookup strict strictToo fun path => ?_
    rw [lookups path, same path, lookupsToo path]

end

/-! ### What the two sources find -/

namespace FileTree

variable {tracked : Bool} {base : String}

theorem added_found (tree : FileTree) :
    ((DirectorySource.added base tree).flatMap (·.2)).Perm ((tree.found tracked base).map (·.2)) := by
  induction tree generalizing tracked base with
  | empty => exact .nil
  | file name own bytes rest ih => exact (ih).cons _
  | directory name own inner rest inside ih =>
    rw [DirectorySource.added, found, List.flatMap_cons, List.map_append]
    refine List.Perm.append ?_ ih
    split
    · exact .nil
    · refine List.Perm.trans ?_ inside
      exact (Sorting.sortBy_perm _ _).flatMap_right _
  | other name rest ih => exact ih

/-- The directory source finds each file below its root that is in no nested `.git`, once. -/
theorem collectDir_perm (tree : FileTree) :
    (DirectorySource.collectDir "" tree).Perm ((tree.found true "").map (·.2)) :=
  ((Sorting.sortBy_perm _ _).flatMap_right _).trans (added_found tree)

theorem slash_slash (path : String) : ResolvedRepo.slash (ResolvedRepo.slash path) = ResolvedRepo.slash path := by
  rw [ResolvedRepo.slash, ResolvedRepo.slash, String.toList_ofList, List.map_map]
  refine congrArg String.ofList (List.map_congr_left fun c _ => ?_)
  by_cases back : c = '\\'
  · simp [back]
  · simp [back]

theorem found_slashed (tree : FileTree) : ∀ file ∈ tree.found tracked base, ResolvedRepo.slash file.2.1 = file.2.1 := by
  induction tree generalizing tracked base with
  | empty => simp [found]
  | file name own bytes rest ih =>
    intro file inside
    rcases List.mem_cons.mp inside with rfl | later
    · exact slash_slash _
    · exact ih file later
  | directory name own inner rest within ih =>
    intro file inside
    rcases List.mem_append.mp inside with below | later
    · split at below
      · cases below
      · exact within file below
    · exact ih file later
  | other name rest ih => exact ih

theorem found_untracked (tree : FileTree) : ∀ file ∈ tree.found false base, file.1 = false := by
  induction tree generalizing base with
  | empty => simp [found]
  | file name own bytes rest ih =>
    intro file inside
    rcases List.mem_cons.mp inside with rfl | later
    · rfl
    · exact ih file later
  | directory name own inner rest within ih =>
    intro file inside
    rw [found, Bool.false_and] at inside
    rcases List.mem_append.mp inside with below | later
    · split at below
      · cases below
      · exact within file below
    · exact ih file later
  | other name rest ih => exact ih

/-- The walk of the commit finds those that are tracked. -/
theorem blobs_found {tree : FileTree} (noGit : tree.noGit = true) :
    ResolvedRepo.slashed (GitSource.blobs base tree) = ((tree.found true base).filter (·.1)).map (·.2) := by
  induction tree generalizing base with
  | empty => rfl
  | file name own bytes rest ih =>
    cases own with
    | true => exact congrArg (List.cons _) (ih noGit)
    | false => exact ih noGit
  | directory name own inner rest within ih =>
    simp only [FileTree.noGit, Bool.and_eq_true] at noGit
    rw [GitSource.blobs, found, List.filter_append, List.map_append, ← ih noGit.2]
    cases own with
    | true =>
      have other : name ≠ ".git" := by simpa using noGit.1.1
      rw [if_pos rfl, if_neg other, Bool.true_and, ← within noGit.1.2]
      exact List.map_append
    | false =>
      have none : (if name = ".git" then []
          else inner.found (true && false) (base ++ name ++ "/")).filter (·.1) = [] := by
        split
        · rfl
        · exact List.filter_eq_nil_iff.mpr fun file inside => by simp [found_untracked inner file inside]
      rw [none]
      rfl
  | other name rest ih => exact ih noGit

end FileTree

/-- A route behind a directory that sorts after the providers, a repository's own directory, and a file that `linked`
    says to be behind a link. -/
def checkout (linked : Bool) : FileTree :=
  .directory "routes" true (.file "00-a.route.yaml" true [97] .empty)
    (.directory ".git" false (.file "HEAD" false [104] .empty)
      (.file "providers.yaml" true [112] (.file "canary.yaml" (!linked) [99] .empty)))

/-- What the walk of the commit records, the files of the root first. -/
def checkoutRecords (linked : Bool) : RepoFiles :=
  [("providers.yaml", [112])] ++ (if linked then [] else [("canary.yaml", [99])]) ++ [("routes/00-a.route.yaml", [97])]

end SmallGateway
