/-
Module: ReqTrace.Proofs.Location.Files
Purpose: The addresses of the files of a repository. Their paths lengthen the path of the root folder by one
  encoded segment for each segment of the file's path. What is appended can stand in a link and is read back by
  decoding, so different files have different addresses.
Main exports: Location.IsFilePath, Location.pathIn_fileUrl, Location.fileUrl_lossless
-/
import ReqTrace.Proofs.Url.Parts

namespace ReqTrace

open Text

namespace Location

/-! ### Parentheses in paths -/

@[simp] theorem encodeParentheses_append (s t : Text) :
    encodeParentheses (s ++ t) = encodeParentheses s ++ encodeParentheses t :=
  List.flatMap_append

theorem encodeParentheses_writePath (segments : List Text) :
    encodeParentheses (Url.writePath segments) = Url.writePath (segments.map encodeParentheses) := by
  by_cases h : segments = []
  · rw [h]
    rfl
  · rw [Url.writePath_eq_flatMap h, Url.writePath_eq_flatMap (by simpa using h), encodeParentheses,
      List.flatMap_assoc, List.flatMap_map]
    rfl

/-- In the path of a file all parentheses are encoded, also those of the root folder. -/
theorem path_fileAt (l : Location) (relative : Text) :
    (l.fileAt relative).path = encodeParentheses (l.root.addSegments (nonemptySegments relative)).path := by
  have hpath : ∀ u : Url, u.path = Url.writePath u.segments.reverse := fun _ => rfl
  rw [hpath, hpath, encodeParentheses_writePath, fileAt, List.map_reverse]

/-! ### Paths of files -/

/-- A path from the root folder to a file: between its slashes stand names, which are neither empty nor made of one
    or two dots, and hold no tabs and line breaks. -/
def IsFilePath (relative : Text) : Prop :=
  ∀ s ∈ relative.splitOn '/', s ≠ [] ∧ Url.isDots s = false ∧ ∀ c ∈ s, Url.isKept c = true

instance (relative : Text) : Decidable (IsFilePath relative) :=
  inferInstanceAs (Decidable (∀ _ ∈ _, _))

/-- The segments that a file's path adds to an address. -/
def linkSegments (relative : Text) : List Text :=
  (relative.splitOn '/').map (Percent.encode Percent.inLink)

variable {l : Location} {relative : Text}

namespace IsFilePath

theorem nonemptySegments_eq (h : IsFilePath relative) : nonemptySegments relative = relative.splitOn '/' := by
  refine List.filter_eq_self.mpr fun s hs => ?_
  simpa using (h s hs).1

theorem written_eq (h : IsFilePath relative) {s : Text} (hs : s ∈ relative.splitOn '/') :
    Url.written s = Percent.encode Percent.inSegment s := by
  rw [Url.written, List.filter_eq_self.mpr (h s hs).2.2]

/-- The directories on the way to a file. -/
theorem directories_eq (h : IsFilePath relative) :
    (l.root.addSegments (nonemptySegments relative)).directories.reverse =
      l.root.directories.reverse ++ (relative.splitOn '/').map (Percent.encode Percent.inSegment) := by
  have hwritten : ∀ s ∈ relative.splitOn '/', Url.written s ≠ [] := by
    intro s hs
    rw [h.written_eq hs]
    exact Percent.encode_ne_nil (by decide) (h s hs).1
  have hnames : (relative.splitOn '/').filter (! Url.isDots ·) = relative.splitOn '/' :=
    List.filter_eq_self.mpr fun s hs => by simp [(h s hs).2.1]
  rw [h.nonemptySegments_eq, Url.directories_addSegments (fun s hs => Url.steady_of_kept (h s hs).2.2) (.inr hwritten),
    hnames, List.reverse_append, List.reverse_reverse, List.map_congr_left fun s hs => h.written_eq hs]

end IsFilePath

/-- The path in the address of a file. The root folder is followed by a slash and a segment for each name. If its own
    path is a slash, this slash is not repeated. -/
theorem pathIn_fileUrl (parted : l.root.Parted) (h : IsFilePath relative) :
    Url.pathIn (l.fileUrl relative) =
      (if l.root.path = ['/'] then [] else encodeParentheses l.root.path) ++
        (linkSegments relative).flatMap ('/' :: ·) := by
  have hlinks : encodeParentheses (((relative.splitOn '/').map (Percent.encode Percent.inSegment)).flatMap
      ('/' :: ·)) = (linkSegments relative).flatMap ('/' :: ·) := by
    rw [linkSegments, encodeParentheses, List.flatMap_assoc, List.flatMap_map, List.flatMap_map]
    refine congrArg (List.flatMap · (relative.splitOn '/')) (funext fun s => ?_)
    exact congrArg ('/' :: ·) (Percent.encodeParentheses_encode s)
  rw [fileUrl_eq, (parted_fileAt parted relative).pathIn_text, path_fileAt, Url.path_eq_writePath,
    h.directories_eq, ← hlinks]
  by_cases hroot : l.root.directories = []
  · rw [if_pos ((Url.path_eq_slash_iff l.root).mpr hroot), hroot, List.reverse_nil, List.nil_append,
      List.nil_append, Url.writePath_eq_flatMap (by simp [List.splitOn_ne_nil])]
  · rw [if_neg (fun hslash => hroot ((Url.path_eq_slash_iff l.root).mp hslash)),
      Url.writePath_append (by simpa using hroot), encodeParentheses_append, ← Url.path_eq_writePath]

theorem linkSegments_plain {s : Text} (hs : s ∈ linkSegments relative) :
    ∀ c ∈ s, IsPrintable c ∧ c ∉ "/()?#\\".toList := by
  have hencoded : ∀ c ∈ "/()?#\\".toList, Percent.inLink c = true ∧ c ∉ Percent.codeChars := by decide
  obtain ⟨name, -, rfl⟩ := List.mem_map.mp hs
  intro c hc
  refine ⟨Percent.isPrintable_of_mem_encode (fun x _ hx => ?_) hc, fun hmark => ?_⟩
  · simp only [Percent.inLink, Bool.or_eq_false_iff] at hx
    exact Percent.isPrintable_of_inSegment hx.1.1
  · exact Percent.not_mem_encode (hencoded c hmark).1 (hencoded c hmark).2 hc

theorem decode_linkSegments (relative : Text) :
    (linkSegments relative).map Percent.decode? = (relative.splitOn '/').map some := by
  rw [linkSegments, List.map_map]
  exact List.map_congr_left fun s _ => Percent.decode?_encode (by decide) s

theorem linkSegments_injective {relative relative' : Text} (h : linkSegments relative = linkSegments relative') :
    relative = relative' := by
  have hdecode := congrArg (List.map Percent.decode?) h
  rw [decode_linkSegments, decode_linkSegments] at hdecode
  have hsplit := List.map_injective_iff.mpr (Option.some_injective _) hdecode
  have hjoin : ['/'].intercalate (relative.splitOn '/') = relative := List.intercalate_splitOn '/'
  rw [← hjoin, hsplit, List.intercalate_splitOn]

/-- The addresses of files are links that lose nothing: their path is that of the root folder with parentheses
    encoded, and then a slash and an encoded segment for each segment of the file's path. What is appended decodes to
    these segments and has no characters that end a path or a link, so different files have different addresses. -/
theorem fileUrl_lossless {remote revision : Text} {l : Location} (h : ofRemote remote revision = .ok l) :
    (∀ relative, IsFilePath relative → ∃ encoded : List Text,
      Url.pathIn (l.fileUrl relative) =
        (if Url.pathIn l.root.text = ['/'] then [] else encodeParentheses (Url.pathIn l.root.text)) ++
          encoded.flatMap ('/' :: ·) ∧
      encoded.map Percent.decode? = (relative.splitOn '/').map some ∧
      ∀ s ∈ encoded, ∀ c ∈ s, IsPrintable c ∧ c ∉ "/()?#\\".toList) ∧
    ∀ relative relative', IsFilePath relative → IsFilePath relative' →
      l.fileUrl relative = l.fileUrl relative' → relative = relative' := by
  have hparted := parted_of_ofRemote h
  constructor
  · intro relative hrelative
    rw [hparted.pathIn_text]
    exact ⟨linkSegments relative, pathIn_fileUrl hparted hrelative, decode_linkSegments relative,
      fun s hs => linkSegments_plain hs⟩
  · intro relative relative' hrelative hrelative' hsame
    have hpath := congrArg Url.pathIn hsame
    rw [pathIn_fileUrl hparted hrelative, pathIn_fileUrl hparted hrelative', List.append_cancel_left_eq] at hpath
    have hnonempty : ∀ relative, linkSegments relative ≠ [] := fun relative => by
      simp [linkSegments, List.splitOn_ne_nil]
    rw [← Url.writePath_eq_flatMap (hnonempty _), ← Url.writePath_eq_flatMap (hnonempty _)] at hpath
    have hplain : ∀ relative, ∀ s ∈ linkSegments relative, '/' ∉ s := fun relative s hs hslash =>
      (linkSegments_plain hs '/' hslash).2 (by decide)
    exact linkSegments_injective (Url.writePath_injective (hnonempty _) (hnonempty _) (hplain _) (hplain _) hpath)

/-- Names with codes, parentheses and letters outside of ASCII, below a root folder with parentheses. -/
theorem fileUrl_lossless_parentheses :
    let relative := "a%2e/%28(é).go".toList
    let decoded := "a./((é).go".toList
    ∃ l, ofRemote "https://e.org/o/r(1)".toList "main".toList = .ok l ∧ IsFilePath relative ∧ IsFilePath decoded ∧
      (∃ encoded : List Text,
        Url.pathIn (l.fileUrl relative) = "/o/r%281%29/blob/main".toList ++ encoded.flatMap ('/' :: ·) ∧
        encoded.map Percent.decode? = ["a%2e", "%28(é).go"].map (some ·.toList)) ∧
      l.fileUrl relative ≠ l.fileUrl decoded := by
  intro relative decoded
  have hlocation : ofRemote "https://e.org/o/r(1)".toList "main".toList = .ok
      { family := .github
        root :=
          { scheme := .https, host := "e.org".toList, port := none
            segments := ["main", "blob", "r(1)", "o"].map String.toList, query := none, fragment := none } } := by
    decide +kernel
  have hpath : IsFilePath relative := by decide
  have hpath' : IsFilePath decoded := by decide
  obtain ⟨hencoded, hdifferent⟩ := fileUrl_lossless hlocation
  obtain ⟨encoded, hencoded, hdecode, -⟩ := hencoded relative hpath
  refine ⟨_, hlocation, hpath, hpath', ⟨encoded, hencoded.trans ?_, hdecode⟩, fun hsame => ?_⟩
  · exact congrArg (· ++ encoded.flatMap ('/' :: ·)) (by decide)
  · exact absurd (hdifferent relative decoded hpath hpath' hsame) (by decide)

/-- A revision that comes to mean the directory above leaves a root folder whose path is a slash, and this slash is not
    repeated in front of a file. -/
theorem fileUrl_below_slash :
    ∃ l, ofRemote "h:.".toList ".\t.".toList = .ok l ∧ IsFilePath ['a'] ∧
      ¬ ∃ encoded : List Text, encoded.map Percent.decode? = (['a'].splitOn '/').map some ∧
        Url.pathIn (l.fileUrl ['a']) = encodeParentheses (Url.pathIn l.root.text) ++ encoded.flatMap ('/' :: ·) := by
  have hlocation : ofRemote "h:.".toList ".\t.".toList = .ok
      { family := .github
        root :=
          { scheme := .https, host := ['h'], port := none, segments := [[]], query := none, fragment := none } } := by
    decide +kernel
  refine ⟨_, hlocation, by decide, ?_⟩
  rintro ⟨encoded, hdecode, hpath⟩
  have hfile : Url.pathIn "https://h/a".toList = "/a".toList := by decide
  have hroot : Url.pathIn "https://h/".toList = "/".toList := by decide
  change Url.pathIn "https://h/a".toList = encodeParentheses (Url.pathIn "https://h/".toList) ++ _ at hpath
  rw [hfile, hroot] at hpath
  cases encoded with
  | nil => cases hdecode
  | cons first others => cases hpath

end Location

end ReqTrace
