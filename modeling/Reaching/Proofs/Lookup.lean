/-
What looking up paths finds, and what reading gives.

A path is walked name by name. Below a folder that is there, names without `..` lead
to the place that they write, so a file is found at a path below the folder exactly if one is
at that place (`isFile_below_iff`), and the files below a folder are just those
that looking up finds there (`mem_filesBelow`), each once and in order
(`pairwise_filesBelow`). A file is read as a text if its bytes are the encoding of one
(`readText_eq_ok_iff`).
-/
import Mathlib.Data.String.Basic
import Mathlib.Data.List.Lex
import Mathlib.Data.List.Nodup
import Reaching.Files
import Reaching.Proofs.Failures
import Reaching.Proofs.Utf8

namespace Reaching

/-! ## Paths -/

namespace Path

variable {p q folder : Path} {names more : List String}

@[simp] theorem below_nil (p : Path) : p.below [] = p := by simp [below]

theorem below_append (p : Path) (names more : List String) :
    p.below (names ++ more) = (p.below names).below more := by simp [below]

theorem enter_eq_below {name : String} (h : name ≠ "..") : p.enter name = p.below [name] := by
  rw [enter, if_neg h]

@[simp] theorem hasNull_below : (p.below names).hasNull = (p.hasNull || hasNull { names := names }) := by
  simp [hasNull, below]

/-- The names of a path below a folder are those that are written after it, if none is `..`. -/
theorem namesBelow?_eq_some_iff :
    folder.namesBelow? p = some names ↔ p = folder.below names ∧ ".." ∉ names := by
  obtain ⟨anchor, all⟩ := p
  simp only [namesBelow?, below, Path.mk.injEq]
  by_cases h : anchor = folder.anchor
  · rw [if_pos h, Option.filter_eq_some_iff, namesAfter?_eq_some_iff]
    simp [h]
  · rw [if_neg h]
    simp [h]

end Path

namespace Files

variable {fs : Files} {p here place q : Path} {names more : List String} {bytes : List UInt8}

/-! ## Places -/

theorem bytesAt?_isSome_iff : (fs.bytesAt? place).isSome = true ↔ place ∈ fs.files.map Prod.fst := by
  rw [bytesAt?, List.lookup_isSome_iff, List.mem_map]
  exact exists_congr fun entry => and_congr_right fun _ => beq_iff_eq.trans eq_comm

/-- Folders stand above every file. -/
theorem isFolderAt_of_below (h : (fs.bytesAt? (place.below names)).isSome = true) (hne : names ≠ []) :
    fs.isFolderAt place = true := by
  obtain ⟨entry, hentry, heq⟩ := List.mem_map.1 (bytesAt?_isSome_iff.1 h)
  have hunder : isUnder entry.1 place = true := by
    have hafter : Path.namesAfter? place.names (place.below names).names = some names :=
      Path.namesAfter?_eq_some_iff.2 rfl
    rw [heq, isUnder, hafter]
    simp [Path.below]
  have hother : entry.1 ≠ place := by
    rw [heq]
    intro h
    have := congrArg Path.names h
    simp [Path.below, hne] at this
  rw [isFolderAt, Bool.or_eq_true, List.any_eq_true]
  exact .inr ⟨entry, hentry, by simp [hunder, hother]⟩

/-! ## Walking -/

theorem walk_append :
    fs.walk here (names ++ more) = (fs.walk here names).bind fun place => fs.walk place more := by
  induction names generalizing here with
  | nil => rfl
  | cons name rest ih =>
    simp only [List.cons_append, walk]
    split
    · split
      · exact ih
      · rfl
    · rfl

theorem walk_ne_nullByte : fs.walk here names ≠ .error .nullByte := by
  induction names generalizing here with
  | nil => simp [walk]
  | cons name rest ih =>
    rw [walk]
    dsimp only
    split
    · split
      · exact ih
      · simp
    · simp

/-- Names without `..` lead to the place that they write. -/
theorem eq_below_of_walk (hway : ".." ∉ names) (h : fs.walk here names = .ok q) : q = here.below names := by
  induction names generalizing here with
  | nil =>
    cases h
    exact (Path.below_nil _).symm
  | cons name rest ih =>
    obtain ⟨hname, hrest⟩ := not_or.1 (mt List.mem_cons.2 hway)
    rw [walk, Path.enter_eq_below (Ne.symm hname)] at h
    dsimp only at h
    split at h
    · split at h
      · rw [ih hrest h, ← Path.below_append, List.singleton_append]
      · cases h
    · cases h

/-- They do lead there if a file is at that place. -/
theorem walk_below (hway : ".." ∉ names) (h : (fs.bytesAt? (here.below names)).isSome = true) :
    fs.walk here names = .ok (here.below names) := by
  induction names generalizing here with
  | nil => rw [walk, Path.below_nil]
  | cons name rest ih =>
    obtain ⟨hname, hrest⟩ := not_or.1 (mt List.mem_cons.2 hway)
    have hnext : here.below (name :: rest) = (here.below [name]).below rest := Path.below_append here [name] rest
    have hthere : ((fs.bytesAt? (here.below [name])).isSome || fs.isFolderAt (here.below [name])) = true := by
      rw [hnext] at h
      by_cases hend : rest = []
      · rw [hend, Path.below_nil] at h
        simp [h]
      · rw [isFolderAt_of_below h hend, Bool.or_true]
    rw [walk, if_pos (isFolderAt_of_below h (by simp)), Path.enter_eq_below (Ne.symm hname), if_pos hthere,
      hnext]
    exact ih hrest (hnext ▸ h)

/-! ## Looking up -/

theorem place_eq_nullByte_iff (fs : Files) : fs.place p = .error .nullByte ↔ p.hasNull = true := by
  rw [place]
  by_cases h : p.hasNull = true
  · simp [h]
  · simp only [h, Bool.false_eq_true, if_false, iff_false]
    split
    · exact walk_ne_nullByte
    · simp

/-- A path below another one is looked up from where that one leads. -/
theorem place_below (hnull : Path.hasNull { names := names } = false) :
    fs.place (p.below names) = (fs.place p).bind fun place => fs.walk place names := by
  rw [place, place, Path.hasNull_below, hnull, Bool.or_false]
  split
  · rfl
  · dsimp only
    show (if fs.isFolderAt { anchor := p.anchor } = true then fs.walk _ (p.names ++ names) else _) = _
    rw [walk_append]
    split <;> rfl

/-- What is at a place has no null byte in its path. -/
theorem hasNull_of_bytesAt? (h : (fs.bytesAt? place).isSome = true) : place.hasNull = false := by
  have := fs.places place (bytesAt?_isSome_iff.1 h)
  simp [Path.isPlace] at this
  exact this.1

/-- The null bytes of a path below a folder are those of its names. -/
theorem not_hasNull_of_place (h : fs.place (p.below names) = .ok q) :
    Path.hasNull { names := names } = false := by
  have hne : fs.place (p.below names) ≠ .error .nullByte := by simp [h]
  have := mt (place_eq_nullByte_iff fs).2 hne
  simp at this
  exact this.2

/-- Where something is below a path, that path leads somewhere. -/
theorem exists_place_of_below (h : fs.place (p.below names) = .ok q) :
    ∃ place, fs.place p = .ok place ∧ fs.walk place names = .ok q := by
  rw [place_below (not_hasNull_of_place h)] at h
  exact except_bind_eq_ok_iff.1 h

theorem isFile_iff : fs.isFile p = true ↔ ∃ place, fs.place p = .ok place ∧ (fs.bytesAt? place).isSome = true := by
  rw [isFile]
  cases fs.place p <;> simp

/-- **A file is at a path below a folder exactly if it is at the place that is written so**, for
names without `..`. -/
theorem isFile_below_iff (hplace : fs.place p = .ok place) (hway : ".." ∉ names) :
    fs.isFile (p.below names) = true ↔ (fs.bytesAt? (place.below names)).isSome = true := by
  rw [isFile_iff]
  constructor
  · rintro ⟨q, hq, hbytes⟩
    obtain ⟨place', hplace', hwalk⟩ := exists_place_of_below hq
    obtain rfl : place' = place := by rw [hplace] at hplace'; cases hplace'; rfl
    rwa [← eq_below_of_walk hway hwalk]
  · intro h
    have hnull : Path.hasNull { names := names } = false := by
      have := hasNull_of_bytesAt? h
      simp at this
      exact this.2
    refine ⟨_, ?_, h⟩
    rw [place_below hnull, hplace]
    exact walk_below hway h

/-- Where a file is there is no folder. -/
theorem not_isFolder_of_isFile (h : fs.isFile p = true) : fs.isFolder p = false := by
  obtain ⟨place, hplace, hbytes⟩ := isFile_iff.1 h
  rw [isFolder, hplace]
  simp [Option.isNone_eq_false_iff.2 hbytes]

end Files

/-! ## Files below a folder -/

/-- A path lies below a folder: names stand behind it, and none of them leads back. -/
def Path.IsBelow (p folder : Path) : Prop := ∃ names, names ≠ [] ∧ ".." ∉ names ∧ p = folder.below names

namespace Files

variable {fs : Files} {p file : Path} {test : String → Bool}

/-- **The files below a folder are those that looking up finds there.** -/
theorem mem_filesBelow : file ∈ fs.filesBelow p test ↔
    fs.isFile file = true ∧ file.IsBelow p ∧ file.names.getLast?.any test = true := by
  have hlast {names : List String} (hne : names ≠ []) :
      (p.below names).names.getLast? = names.getLast? := by
    simp [Path.below, List.getLast?_append, List.getLast?_eq_some_getLast hne]
  rw [filesBelow]
  cases hplace : fs.place p with
  | error e =>
    refine iff_of_false (by simp) ?_
    rintro ⟨hfile, ⟨names, -, -, rfl⟩, -⟩
    obtain ⟨q, hq, -⟩ := isFile_iff.1 hfile
    obtain ⟨place, hplace', -⟩ := exists_place_of_below hq
    rw [hplace] at hplace'
    cases hplace'
  | ok place =>
    simp only [Path.sort, List.mem_mergeSort, List.mem_filterMap, Option.map_eq_some_iff,
      Option.filter_eq_some_iff, Path.namesBelow?_eq_some_iff]
    constructor
    · rintro ⟨entry, hentry, names, ⟨⟨heq, hway⟩, htest⟩, rfl⟩
      have hne : names ≠ [] := by
        rintro rfl
        simp at htest
      refine ⟨(isFile_below_iff hplace hway).2 (bytesAt?_isSome_iff.2 ?_), ⟨names, hne, hway, rfl⟩, ?_⟩
      · exact List.mem_map.2 ⟨entry, hentry, heq⟩
      · rwa [hlast hne]
    · rintro ⟨hfile, ⟨names, hne, hway, rfl⟩, htest⟩
      obtain ⟨entry, hentry, heq⟩ :=
        List.mem_map.1 (bytesAt?_isSome_iff.1 ((isFile_below_iff hplace hway).1 hfile))
      exact ⟨entry, hentry, names, ⟨⟨heq, hway⟩, hlast hne ▸ htest⟩, rfl⟩

theorem nodup_names_found (fs : Files) (p place : Path) (test : String → Bool) :
    ((fs.files.filterMap fun (file, _) =>
      ((place.namesBelow? file).filter (·.getLast?.any test)).map p.below).map (·.names)).Nodup := by
  have hnames : ((fs.files.filterMap fun (file, _) =>
      ((place.namesBelow? file).filter (·.getLast?.any test)).map p.below).map (·.names)) =
        (fs.files.map Prod.fst).filterMap fun file =>
          ((place.namesBelow? file).filter (·.getLast?.any test)).map (p.names ++ ·) := by
    rw [List.map_filterMap, List.filterMap_map]
    refine List.filterMap_congr fun entry _ => ?_
    rw [Function.comp_apply, Option.map_map]
    rfl
  rw [hnames]
  refine fs.nodup.filterMap fun a b all ha hb => ?_
  simp only [Option.mem_def, Option.map_eq_some_iff, Option.filter_eq_some_iff,
    Path.namesBelow?_eq_some_iff] at ha hb
  obtain ⟨names, ⟨⟨rfl, -⟩, -⟩, hall⟩ := ha
  obtain ⟨more, ⟨⟨rfl, -⟩, -⟩, hmore⟩ := hb
  rw [List.append_cancel_left (hall.trans hmore.symm)]

/-- **They come in the order of their names**, and each comes once. -/
theorem pairwise_filesBelow (fs : Files) (p : Path) (test : String → Bool) :
    (fs.filesBelow p test).Pairwise fun a b => a.names < b.names := by
  rw [filesBelow]
  cases fs.place p with
  | error e => exact .nil
  | ok place =>
    have hdistinct := nodup_names_found fs p place test
    dsimp only
    generalize fs.files.filterMap (fun (file, _) =>
      ((place.namesBelow? file).filter (·.getLast?.any test)).map p.below) = found at hdistinct ⊢
    have hsorted : (Path.sort found).Pairwise fun a b => a.names ≤ b.names := by
      refine (List.pairwise_mergeSort ?_ ?_ found).imp fun hab => ?_
      · intro a b c hab hbc
        simp at hab hbc ⊢
        exact le_trans hab hbc
      · intro a b
        simp
        exact le_total _ _
      · simpa using hab
    have hnodup : (Path.sort found).Pairwise fun a b => a.names ≠ b.names :=
      List.pairwise_map.1 (((List.mergeSort_perm found _).map _).nodup_iff.2 hdistinct)
    exact hsorted.imp₂ (fun a b hle hne => lt_of_le_of_ne hle hne) hnodup

end Files

/-! ## Reading -/

namespace Files

variable {fs : Files} {p : Path}

/-- Reading meets a null byte exactly if one stands in the path. -/
theorem exists_read_nullByte_iff (fs : Files) :
    (∃ e, fs.read p = .error e ∧ e.fault = .nullByte) ↔ p.hasNull = true := by
  rw [← place_eq_nullByte_iff fs, read]
  cases fs.place p with
  | error fault => simp
  | ok place =>
    dsimp only
    split <;> simp

/-- A path leads to a file exactly if that can be read. -/
theorem isFile_iff_read : fs.isFile p = true ↔ ∃ bytes, fs.read p = .ok bytes := by
  rw [isFile, read]
  cases fs.place p with
  | error fault => simp
  | ok place =>
    dsimp only
    cases fs.bytesAt? place <;> simp

/-- A file holds a text: its bytes are UTF-8, and with every line break as a line feed they
write the text. -/
def Holds (fs : Files) (p : Path) (text : String) : Prop :=
  ∃ held : String, fs.read p = .ok (held.toList.flatMap String.utf8EncodeChar) ∧
    String.ofList (Text.unifyBreaks held.toList) = text

/-- **A file is read as the text that it holds.** -/
theorem readText_eq_ok_iff {text : String} : fs.readText p = .ok text ↔ fs.Holds p text := by
  simp only [readText, except_bind_eq_ok_iff, mapError_eq_ok_iff, Text.ofUtf8_eq_ok_iff, Except.ok.injEq, Holds]
  constructor
  · rintro ⟨bytes, hread, held, rfl, htext⟩
    exact ⟨held, hread, htext⟩
  · rintro ⟨held, hread, htext⟩
    exact ⟨_, hread, held, rfl, htext⟩

/-- It is not read as text if it cannot be read, or if its bytes are no text. -/
theorem readText_eq_error_iff {e : TextError} : fs.readText p = .error e ↔
    (∃ fault, fs.read p = .error fault ∧ .file fault = e) ∨
      ∃ bytes, fs.read p = .ok bytes ∧ ∃ fault, Text.ofUtf8 bytes = .error fault ∧ .encoding fault = e := by
  simp [readText, except_bind_eq_error_iff, mapError_eq_error_iff, mapError_eq_ok_iff]

end Files
end Reaching
