import Mathlib.Data.List.Destutter
import Mathlib.Data.String.Basic
import SmallGateway.Lib.Records
import SmallGateway.Lib.Sorting
import SmallGateway.Rendering

/-!
How a directory of files is told from a changed one (`gatewayctl/src/source.rs`, `set_applied_from_source` in
`gatewayctl/src/fleet.rs`): the id of a file set is the hash over every path and the hash of the file there, in the
order of the paths, and the first sixteen digits of it name the commit of the directory. A fleet starts a rollout when
the commit of a render is not the one that is applied.

The hash of a file is taken over the text that its bytes read as, and bytes that are no text read as replacement
characters: files that differ in such bytes only have one id, and no rollout starts. `detectsChanges_iff` says exactly
when changes between two sets are detected, and `readAlike_iff_perm` that they are where no file reads with a
replacement character.
-/

namespace SmallGateway

/-- `content_hash`, over the digest of the bytes of a text. -/
def contentHash (sha256 : List UInt8 → List UInt8) (text : String) : String := Text.hex (sha256 text.toUTF8.toList)

namespace ResolvedRepo

/-- One file as it goes into the id: its path, and the hash of what its bytes read as. -/
def idEntry (sha256 : List UInt8 → List UInt8) (file : String × List UInt8) : List Char :=
  file.1.toList ++ '\x00' :: ((contentHash sha256 (Text.fromUtf8Lossy file.2)).toList ++ ['\n'])

/-- The text that is hashed for the id of a file set. -/
def hasherInput (sha256 : List UInt8 → List UInt8) (files : RepoFiles) : String :=
  String.ofList ((files.insertionSort fun a b => a.1 ≤ b.1).flatMap (idEntry sha256))

def contentId (sha256 : List UInt8 → List UInt8) (files : RepoFiles) : String :=
  contentHash sha256 (hasherInput sha256 files)

/-- A repo of files in any order. Of two files at one path the first one is taken. -/
def new (files : RepoFiles) (sourceCommit : String) : ResolvedRepo :=
  let slashed := files.map fun (path, bytes) => (path.map fun c => if c = '\\' then '/' else c, bytes)
  ⟨(slashed.insertionSort fun a b => a.1 ≤ b.1).destutter fun a b => a.1 ≠ b.1, sourceCommit⟩

end ResolvedRepo

namespace DirectorySource

/-- The part of the id that is kept. -/
def shortId (sha256 : List UInt8 → List UInt8) (files : RepoFiles) : String :=
  String.ofList ((ResolvedRepo.contentId sha256 files).toList.take 16)

/-- The repo of a directory that holds these files. -/
def resolve (sha256 : List UInt8 → List UInt8) (files : RepoFiles) : ResolvedRepo :=
  .new files ("dir-" ++ shortId sha256 files)

/-- The paths of files have no NUL in them. -/
def Resolvable (files : RepoFiles) : Prop := ∀ file ∈ files, '\x00' ∉ file.1.toList

/-- A file as it is read: bytes that are no text are read as replacement characters. -/
def asRead (file : String × List UInt8) : String × String := (file.1, Text.fromUtf8Lossy file.2)

/-- At each path the two sets read as the same texts. -/
def ReadAlike (a b : RepoFiles) : Prop :=
  ∀ path, Sorting.withKey (·.1) path (a.map asRead) = Sorting.withKey (·.1) path (b.map asRead)

/-- The bytes of the digest that are kept. -/
def kept (sha256 : List UInt8 → List UInt8) (files : RepoFiles) : List UInt8 :=
  (sha256 (ResolvedRepo.hasherInput sha256 files).toUTF8.toList).take 8

/-- The ids of the two sets are equal exactly when the sets are, and after the first of them was applied, applying the
    second one starts a rollout exactly when the sets differ. -/
structure DetectsChanges (sha256 : List UInt8 → List UInt8) (a b : RepoFiles) : Prop where
  ids : ResolvedRepo.contentId sha256 a = ResolvedRepo.contentId sha256 b ↔ a.Perm b
  rollout : ∀ (fleet : Fleet) (next : Rendered) (plan : WavePlan),
    fleet.applied.sourceCommit = (resolve sha256 a).sourceCommit →
      next.sourceCommit = (resolve sha256 b).sourceCommit →
        ((fleet.setAppliedFromSource next (resolve sha256 b) plan).1 = true ↔ ¬ a.Perm b)

/-! ### Ids -/

theorem shortId_eq_iff {sha256 : List UInt8 → List UInt8} {a b : RepoFiles} :
    shortId sha256 a = shortId sha256 b ↔ kept sha256 a = kept sha256 b := by
  have digits (files : RepoFiles) : shortId sha256 files = Text.hex (kept sha256 files) := by
    rw [shortId, ResolvedRepo.contentId, contentHash, Text.hex_take 8, String.ofList_toList, kept]
  rw [digits, digits]
  exact ⟨fun same => Text.hex_injective same, congrArg _⟩

section

variable {sha256 : List UInt8 → List UInt8} (injective : Function.Injective sha256)

include injective

theorem contentHash_injective : Function.Injective (contentHash sha256) := by
  intro text other same
  exact Text.bytes_injective (injective (Text.hex_injective same))

/-- The ids of two sets are equal exactly when the sets read alike. -/
theorem contentId_eq_iff {a b : RepoFiles} (resolvable : Resolvable a) (resolvableToo : Resolvable b) :
    ResolvedRepo.contentId sha256 a = ResolvedRepo.contentId sha256 b ↔ ReadAlike a b := by
  -- What is hashed are the records of the paths and the hashes, in the order of the paths.
  let record (read : String × String) : List Char × List Char := (read.1.toList, (contentHash sha256 read.2).toList)
  have recordInjective : Function.Injective record := by
    intro read other same
    obtain ⟨paths, hashes⟩ := Prod.mk.inj same
    exact Prod.ext (String.toList_inj.mp paths) (contentHash_injective injective (String.toList_inj.mp hashes))
  have written (files : RepoFiles) : (files.insertionSort fun x y => x.1 ≤ y.1).flatMap (ResolvedRepo.idEntry sha256) =
      Records.encode '\x00' '\n' ((Sorting.sortBy (·.1) (files.map asRead)).map record) := by
    rw [← Sorting.map_sortBy asRead (fun _ => rfl), Records.encode, List.flatMap_map, List.flatMap_map]
    rfl
  have separable {files : RepoFiles} (resolvable : Resolvable files) :
      ∀ entry ∈ (Sorting.sortBy (·.1) (files.map asRead)).map record, Records.Separable '\x00' '\n' entry := by
    intro entry listed
    obtain ⟨read, sorted, rfl⟩ := List.mem_map.mp listed
    obtain ⟨file, there, rfl⟩ := List.mem_map.mp ((Sorting.sortBy_perm _ _).mem_iff.mp sorted)
    exact ⟨resolvable file there, Text.newline_not_mem_hex _⟩
  rw [ReadAlike, ← Sorting.sortBy_eq_iff]
  constructor
  · intro same
    have texts := String.ofList_inj.mp (contentHash_injective injective same)
    rw [written, written] at texts
    exact recordInjective.list_map
      (Records.encode_injective (separable resolvable) (separable resolvableToo) texts)
  · intro same
    rw [ResolvedRepo.contentId, ResolvedRepo.contentId, ResolvedRepo.hasherInput, ResolvedRepo.hasherInput, written,
      written, same]

/-- Changes between two sets are detected exactly when the sets read alike only where they are equal, and the bytes of
    the digest that are kept tell apart what does not read alike. -/
theorem detectsChanges_iff {a b : RepoFiles} (resolvable : Resolvable a) (resolvableToo : Resolvable b) :
    DetectsChanges sha256 a b ↔
      (ReadAlike a b ↔ a.Perm b) ∧ (kept sha256 a = kept sha256 b → ReadAlike a b) := by
  have ids := contentId_eq_iff injective resolvable resolvableToo
  have commits : (resolve sha256 a).sourceCommit = (resolve sha256 b).sourceCommit ↔
      kept sha256 a = kept sha256 b := by
    rw [← shortId_eq_iff]
    simp [resolve, ResolvedRepo.new]
  -- Whether a rollout starts is up to the two commits.
  have starts {fleet : Fleet} {next : Rendered} (plan : WavePlan)
      (applied : fleet.applied.sourceCommit = (resolve sha256 a).sourceCommit)
      (made : next.sourceCommit = (resolve sha256 b).sourceCommit) :
      (fleet.setAppliedFromSource next (resolve sha256 b) plan).1 = true ↔ ¬ kept sha256 a = kept sha256 b := by
    rw [← commits, ← applied, ← made]
    exact bne_iff_ne
  constructor
  · intro detects
    have readAlike := ids.symm.trans detects.ids
    refine ⟨readAlike, fun same => ?_⟩
    let applied : Rendered := ⟨[], "", (resolve sha256 a).sourceCommit⟩
    let next : Rendered := ⟨[], "", (resolve sha256 b).sourceCommit⟩
    have rollout := detects.rollout (Fleet.fromSource applied (resolve sha256 a) .single) next .single rfl rfl
    rw [starts .single rfl rfl, not_iff_not] at rollout
    exact readAlike.mpr (rollout.mp same)
  · rintro ⟨readAlike, apart⟩
    refine ⟨ids.trans readAlike, fun fleet next plan applied made => ?_⟩
    rw [starts plan applied made, ← readAlike, not_iff_not]
    refine ⟨apart, fun alike => shortId_eq_iff.mp ?_⟩
    rw [shortId, ids.mpr alike, shortId]

end

/-! ### Files that are text -/

/-- A file of this path and text. -/
def ofText (read : String × String) : String × List UInt8 := (read.1, Text.utf8Bytes read.2)

theorem map_ofText {files : RepoFiles} (texts : ∀ file ∈ files, '\uFFFD' ∉ (asRead file).2.toList) :
    (files.map asRead).map ofText = files := by
  rw [List.map_map, List.map_congr_left (g := id), List.map_id]
  intro file listed
  exact Prod.ext rfl (Text.utf8Bytes_fromUtf8Lossy (texts file listed))

/-- A set of files at different paths that read without a replacement character reads like itself only. -/
theorem readAlike_iff_perm {a b : RepoFiles} (distinct : (a.map (·.1)).Nodup)
    (texts : ∀ file ∈ a, '\uFFFD' ∉ (asRead file).2.toList) : ReadAlike a b ↔ a.Perm b := by
  constructor
  · intro alike
    have sorted : Sorting.sortBy (·.1) (a.map asRead) = Sorting.sortBy (·.1) (b.map asRead) :=
      Sorting.sortBy_eq_iff.mpr alike
    have reads : (a.map asRead).Perm (b.map asRead) := by
      refine (Sorting.sortBy_perm (·.1) _).symm.trans ?_
      rw [sorted]
      exact Sorting.sortBy_perm _ _
    -- What the files of one set read as, those of the other one read as too.
    have textsToo : ∀ file ∈ b, '\uFFFD' ∉ (asRead file).2.toList := by
      intro file listed
      obtain ⟨other, among, same⟩ := List.mem_map.mp (reads.mem_iff.mpr (List.mem_map_of_mem listed))
      exact same ▸ texts other among
    have files := reads.map ofText
    rwa [map_ofText texts, map_ofText textsToo] at files
  · intro perm path
    refine Sorting.withKey_eq_of_perm ?_ (perm.map asRead) path
    rw [List.map_map]
    exact distinct

/-! ### Two files in another order, and a changed image -/

namespace TwoFiles

def listed : RepoFiles := [("a", "1".toUTF8.toList), ("b", "2".toUTF8.toList)]

def reversed : RepoFiles := [("b", "2".toUTF8.toList), ("a", "1".toUTF8.toList)]

/-- What is hashed for the id of the two files. -/
def idText : String :=
  "a\x006b86b273ff34fce19d6b804eff5a3f5747ada4eaa22f1d49c01e52ddb7875b4b\n" ++
    "b\x00d4735e3a265e16eee03f59718b9b5d03019c07d8b6c51f90da3a666eec13ab35\n"

/-- The digests of the texts that occur. -/
def digests : List (List UInt8 × List UInt8) :=
  [("1".toUTF8.toList,
      [0x6b, 0x86, 0xb2, 0x73, 0xff, 0x34, 0xfc, 0xe1, 0x9d, 0x6b, 0x80, 0x4e, 0xff, 0x5a, 0x3f, 0x57,
        0x47, 0xad, 0xa4, 0xea, 0xa2, 0x2f, 0x1d, 0x49, 0xc0, 0x1e, 0x52, 0xdd, 0xb7, 0x87, 0x5b, 0x4b]),
    ("2".toUTF8.toList,
      [0xd4, 0x73, 0x5e, 0x3a, 0x26, 0x5e, 0x16, 0xee, 0xe0, 0x3f, 0x59, 0x71, 0x8b, 0x9b, 0x5d, 0x03,
        0x01, 0x9c, 0x07, 0xd8, 0xb6, 0xc5, 0x1f, 0x90, 0xda, 0x3a, 0x66, 0x6e, 0xec, 0x13, 0xab, 0x35]),
    (idText.toUTF8.toList,
      [0xe2, 0xcb, 0x7a, 0x5e, 0x82, 0x8b, 0x2a, 0x31, 0x2d, 0x5d, 0xa6, 0xcd, 0xa6, 0x4f, 0xf2, 0x6c,
        0xd2, 0xb3, 0x0f, 0x11, 0x75, 0x18, 0x26, 0x41, 0x27, 0x17, 0xd5, 0x19, 0x76, 0xf8, 0xd4, 0x25])]

/-- The digest of a text that occurs; of any other text, something longer. -/
def digest (bytes : List UInt8) : List UInt8 := (digests.lookup bytes).getD (List.replicate 33 0 ++ bytes)

theorem digest_injective : Function.Injective digest := by
  have sizes : ∀ entry ∈ digests, entry.2.length = 32 := by decide
  have apart : (digests.map (·.2)).Nodup := by decide
  have listed {bytes known : List UInt8} (found : digests.lookup bytes = some known) : (bytes, known) ∈ digests := by
    obtain ⟨before, after, parts, -⟩ := List.lookup_eq_some_iff.mp found
    exact parts ▸ List.mem_append_right before List.mem_cons_self
  -- A digest of the table is too short to be one of the others.
  have shorter {bytes others known : List UInt8} (found : digests.lookup bytes = some known) :
      known ≠ List.replicate 33 0 ++ others := by
    rintro rfl
    have size := sizes _ (listed found)
    rw [List.length_append, List.length_replicate] at size
    omega
  intro bytes others same
  unfold digest at same
  cases found : digests.lookup bytes with
  | none =>
    cases foundToo : digests.lookup others with
    | none =>
      rw [found, foundToo] at same
      exact List.append_cancel_left same
    | some known =>
      rw [found, foundToo] at same
      exact absurd same.symm (shorter foundToo)
  | some known =>
    cases foundToo : digests.lookup others with
    | none =>
      rw [found, foundToo] at same
      exact absurd same (shorter found)
    | some knownToo =>
      rw [found, foundToo] at same
      exact congrArg Prod.fst (List.inj_on_of_nodup_map apart (listed found) (listed foundToo) same)

theorem listed_texts : ∀ file ∈ listed, '\uFFFD' ∉ (asRead file).2.toList := by decide +kernel

/-- Listing the files the other way around is no change, and starts no rollout. -/
theorem reversed_files_unchanged : DetectsChanges digest listed reversed := by
  have alike {files : RepoFiles} : ReadAlike listed files ↔ listed.Perm files :=
    readAlike_iff_perm (by decide) listed_texts
  have resolvable : Resolvable listed ∧ Resolvable reversed := by
    unfold Resolvable
    decide
  exact (detectsChanges_iff digest_injective resolvable.1 resolvable.2).mpr
    ⟨alike, fun _ => alike.mpr (.swap _ _ _)⟩

/-- An image whose first byte is no text. -/
def image : RepoFiles := [("logo.bin", [0xFF])]

/-- The image with that byte replaced by the replacement character. -/
def otherImage : RepoFiles := [("logo.bin", [0xEF, 0xBF, 0xBD])]

/-- The change of an image is not detected. -/
theorem changed_image_not_detected :
    ¬ ∀ sha256 : List UInt8 → List UInt8, Function.Injective sha256 → ∀ a b : RepoFiles,
      Resolvable a → Resolvable b → DetectsChanges sha256 a b := by
  intro detected
  have resolvable : Resolvable image ∧ Resolvable otherImage := by
    unfold Resolvable
    decide
  have detects := detected digest digest_injective image otherImage resolvable.1 resolvable.2
  have alike : ReadAlike image otherImage := by
    intro path
    rw [show image.map asRead = otherImage.map asRead by decide]
  have same := (contentId_eq_iff digest_injective resolvable.1 resolvable.2).mpr alike
  have differ : ¬ image.Perm otherImage := by decide
  exact differ (detects.ids.mp same)

end TwoFiles

end DirectorySource

end SmallGateway
