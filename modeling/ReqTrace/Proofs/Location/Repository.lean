/-
Module: ReqTrace.Proofs.Location.Repository
Purpose: Where a web URL leads as a remote. The segments of its path are encoded once more when they are added to
  the address of the repository, so they are kept exactly if they have no codes and none of them is dots once `.git`
  is gone.
Main exports: Url.inSegment_of_parse?, Url.repositorySegments, Location.path_of_web_remote
-/
import ReqTrace.Proofs.Url.Parts

namespace ReqTrace

open Text

/-! ### Segments of URLs that have been read -/

namespace Url

theorem not_isSlash_of_mem_pathParts {scheme : Scheme} {t part : Text} (h : part ∈ pathParts scheme t) :
    ∀ c ∈ part, isSlash scheme c = false := by
  unfold pathParts at h
  split at h
  · rw [List.mem_singleton.mp h]
    simp
  · exact fun c hc => (of_mem_splitOnP h c hc).2

/-- A character of the path of a web URL is encoded in an added segment only if it is a percent sign. -/
theorem inSegment_of_parse? {t : Text} {u : Url} (h : parse? t = some u) (hweb : u.scheme.isWeb = true) :
    ∀ s ∈ u.segments, ∀ c ∈ s, Percent.inSegment c = true → c = '%' := by
  simp only [parse?, Option.bind_eq_bind, Option.bind_eq_some_iff] at h
  obtain ⟨⟨scheme, _⟩, _, _, _, _, _, ⟨port, _⟩, _, heq⟩ := h
  cases heq
  intro s hs c hc hsegment
  have hcodes : ∀ c ∈ Percent.codeChars, Percent.inSegment c = true → c = '%' := by decide
  rcases mem_resolve hs with rfl | hpart
  · cases hc
  · obtain ⟨part, hread, rfl⟩ := List.mem_map.mp hpart
    rcases Percent.mem_encode hc with ⟨hmem, hkept⟩ | hcode
    · have hslash := not_isSlash_of_mem_pathParts hread c hmem
      simp only at hweb
      simp only [isSlash, hweb, Bool.true_and, Bool.or_eq_false_iff, beq_eq_false_iff_ne] at hslash
      simpa [Percent.inSegment, hkept, hslash] using hsegment
    · exact hcodes c hcode hsegment

/-- The segments of the repository in the path of a URL: without slashes around it, without one `.git` at its end and
    without empty segments. -/
def repositorySegments (u : Url) : List Text :=
  nonemptySegments (Remote.repository { host := u.host, port := u.port, path := u.path })

end Url

theorem Remote.mem_repository {r : Remote} {c : Char} (h : c ∈ r.repository) : c ∈ r.path := by
  have htrimmed : ∀ c ∈ dropWhileEnd (· == '/') (r.path.dropWhile (· == '/')), c ∈ r.path := fun c hc =>
    (List.dropWhile_sublist _).subset ((prefix_dropWhileEnd _ _).subset hc)
  unfold repository at h
  cases htail : dropTail? ".git".toList (dropWhileEnd (· == '/') (r.path.dropWhile (· == '/'))) with
  | none =>
      simp only [htail, Option.getD_none] at h
      exact htrimmed c h
  | some rest =>
      simp only [htail, Option.getD_some] at h
      refine htrimmed c ?_
      rw [dropTail?_eq_some_iff.mp htail]
      exact List.mem_append_left _ h

namespace Url

variable {u : Url}

/-- What the segments of a repository are made of. -/
theorem of_mem_repositorySegments {s : Text} (h : s ∈ u.repositorySegments) :
    s ≠ [] ∧ '/' ∉ s ∧ ∀ c ∈ s, ∃ segment ∈ u.segments, c ∈ segment := by
  obtain ⟨hpiece, hnonempty⟩ := List.mem_filter.mp h
  refine ⟨by simpa using hnonempty, not_mem_of_mem_splitOn hpiece, fun c hc => ?_⟩
  have hpath : c ∈ u.path := Remote.mem_repository (of_mem_splitOnP hpiece c hc).1
  have hslash : c ≠ '/' := fun heq => not_mem_of_mem_splitOn hpiece (heq ▸ hc)
  rcases List.mem_cons.mp hpath with heq | hjoin
  · exact absurd heq hslash
  · rcases mem_of_mem_join hjoin with hsep | ⟨segment, hsegment, hmem⟩
    · exact absurd (List.mem_singleton.mp hsep) hslash
    · exact ⟨segment, List.mem_reverse.mp hsegment, hmem⟩

/-- A segment of the repository is left as it is exactly if it has no codes. -/
theorem encode_eq_self_iff_of_parse? {t s : Text} (h : parse? t = some u) (hweb : u.scheme.isWeb = true)
    (hs : s ∈ u.repositorySegments) : Percent.encode Percent.inSegment s = s ↔ '%' ∉ s := by
  rw [Percent.encode_eq_self_iff]
  constructor
  · intro hplain hcode
    exact absurd (hplain '%' hcode) (by decide)
  · intro hcode c hc
    obtain ⟨segment, hsegment, hmem⟩ := (of_mem_repositorySegments hs).2.2 c hc
    by_contra hencoded
    exact hcode (inSegment_of_parse? h hweb segment hsegment c hmem (by simpa using hencoded) ▸ hc)

theorem written_eq_of_parse? {t s : Text} (h : parse? t = some u) (hs : s ∈ u.repositorySegments) :
    Steady s ∧ written s = Percent.encode Percent.inSegment s ∧ written s ≠ [] := by
  obtain ⟨hnonempty, -, hchars⟩ := of_mem_repositorySegments hs
  have hkept : ∀ c ∈ s, isKept c = true := fun c hc => by
    obtain ⟨segment, hsegment, hmem⟩ := hchars c hc
    exact isKept_of_isPrintable ((printable_of_parse? h).segments segment hsegment c hmem)
  have hwritten : written s = Percent.encode Percent.inSegment s := by
    rw [written, List.filter_eq_self.mpr hkept]
  exact ⟨steady_of_kept hkept, hwritten, hwritten ▸ Percent.encode_ne_nil (by decide) hnonempty⟩

end Url

/-! ### Addresses of repositories -/

theorem HostFamily.infixSegments_plain (family : HostFamily) :
    family.infixSegments ≠ [] ∧ ∀ s ∈ family.infixSegments, Url.IsPlain s := by
  cases family <;> decide

namespace Location

variable {u : Url}

theorem dropEmptyEnd_eq_self (h : ∀ s ∈ u.directories, s ≠ []) : u.dropEmptyEnd = u := by
  unfold Url.dropEmptyEnd
  split
  · rename_i segment outer hsegments
    have hdirectories := Url.directories_eq hsegments (.inr (List.cons_ne_nil _ _))
    rw [hdirectories] at h
    exact absurd rfl (h [] List.mem_cons_self)
  · rfl

/-- The segments of the family follow those of the repository. -/
theorem directories_addInfix (h : ∀ s ∈ u.directories, s ≠ []) (family : HostFamily) :
    (u.dropEmptyEnd.addSegments family.infixSegments).directories =
      family.infixSegments.reverse ++ u.directories := by
  rw [dropEmptyEnd_eq_self h, Url.directories_addSegments_plain family.infixSegments_plain.2]

/-- The segments of the repository as they stand in its address. -/
def encodedSegments (u : Url) : List Text :=
  (u.repositorySegments.filter (! Url.isDots ·)).map (Percent.encode Percent.inSegment)

/-- What follows the segments of the repository in the path of a root folder: those of the family and those of the
    revision. -/
def revisionSegments (family : HostFamily) (revision : Text) : List Text :=
  family.infixSegments ++ (((trim revision).splitOn '/').filter (! Url.isDots ·)).map Url.written

/-- The directories of a root folder. The segments of the repository come first, whatever the revision is. -/
theorem exists_directories_root {remote revision : Text} {l : Location}
    (hform : contains "://".toList (trim remote) = true) (hurl : Url.parse? (trim remote) = some u)
    (h : ofRemote remote revision = .ok l) :
    ∃ tail, l.root.directories.reverse = encodedSegments u ++ tail ∧
      ((∀ s ∈ (trim revision).splitOn '/', Url.Steady s) → tail = revisionSegments l.family revision) := by
  obtain ⟨repository, hrepository, -, rfl⟩ := ofRemote_eq_ok_iff.mp h
  obtain ⟨r, base, hremote, -, -, hr⟩ := repositoryUrl_eq_ok_iff.mp hrepository
  have hsegments : nonemptySegments r.repository = u.repositorySegments := by
    simp only [Remote.parse?, hform, if_true, Remote.ofUrl?, hurl] at hremote
    cases hremote
    rfl
  have hbase : repository.directories = (encodedSegments u).reverse := by
    rw [hr, hsegments, Url.directories_addSegments (fun s hs => (Url.written_eq_of_parse? hurl hs).1)
      (.inr fun s hs => (Url.written_eq_of_parse? hurl hs).2.2)]
    rw [encodedSegments, List.map_congr_left fun s hs =>
      (Url.written_eq_of_parse? hurl (List.mem_of_mem_filter hs)).2.1]
    exact List.append_nil _
  have hnonempty : ∀ s ∈ repository.directories, s ≠ [] := by
    rw [hbase]
    intro s hs
    obtain ⟨segment, hsegment, rfl⟩ := List.mem_map.mp (List.mem_reverse.mp hs)
    have hread := Url.written_eq_of_parse? hurl (List.mem_of_mem_filter hsegment)
    rw [← hread.2.1]
    exact hread.2.2
  have hlonger := directories_addInfix hnonempty (HostFamily.ofHost repository.host)
  have hfamily : (HostFamily.ofHost repository.host).infixSegments.reverse ≠ [] := by
    simpa using (HostFamily.infixSegments_plain _).1
  by_cases hsteady : ∀ s ∈ (trim revision).splitOn '/', Url.Steady s
  · refine ⟨_, ?_, fun _ => rfl⟩
    rw [Url.directories_addSegments hsteady (.inl (by simp [hlonger, hfamily])), hlonger, hbase]
    simp [revisionSegments]
  · by_cases hown : encodedSegments u = []
    · exact ⟨_, by rw [hown, List.nil_append], fun h => absurd h hsteady⟩
    · obtain ⟨added, hadded⟩ := Url.exists_directories_addSegments hlonger hfamily (by simpa [hbase] using hown)
        ((trim revision).splitOn '/')
      refine ⟨added.reverse, ?_, fun h => absurd h hsteady⟩
      rw [hadded, hbase]
      simp

theorem encodedSegments_eq_iff {t : Text} (h : Url.parse? t = some u) (hweb : u.scheme.isWeb = true) :
    encodedSegments u = u.repositorySegments ↔ ∀ s ∈ u.repositorySegments, '%' ∉ s ∧ Url.isDots s = false := by
  have hplain : ∀ s ∈ u.repositorySegments, Percent.encode Percent.inSegment s = s ↔ '%' ∉ s := fun s hs =>
    Url.encode_eq_self_iff_of_parse? h hweb hs
  unfold encodedSegments
  constructor
  · intro heq
    have hlength := congrArg List.length heq
    rw [List.length_map, List.length_filter_eq_length_iff] at hlength
    rw [List.filter_eq_self.mpr hlength] at heq
    have hsame : ∀ s ∈ u.repositorySegments, Percent.encode Percent.inSegment s = s :=
      List.map_eq_map_iff.mp (heq.trans (List.map_id _).symm)
    exact fun s hs => ⟨(hplain s hs).mp (hsame s hs), by simpa using hlength s hs⟩
  · intro hkept
    rw [List.filter_eq_self.mpr fun s hs => by simp [(hkept s hs).2]]
    exact (List.map_congr_left fun s hs => (hplain s hs).mpr (hkept s hs).1).trans (List.map_id _)

theorem not_slash_of_mem_encodedSegments {s : Text} (h : s ∈ encodedSegments u) : '/' ∉ s := by
  obtain ⟨segment, -, rfl⟩ := List.mem_map.mp h
  exact Percent.not_mem_encode (by decide) (by decide)

/-- The path of the root folder behind a web URL. It starts with the segments of the repository, each of them encoded
    once more and without those that are dots, so that it keeps the path of the URL exactly if that has no codes and no
    segment that is dots once `.git` is gone. -/
theorem path_of_web_remote {remote revision : Text} {l : Location}
    (hform : contains "://".toList (trim remote) = true) (hurl : Url.parse? (trim remote) = some u)
    (hweb : u.scheme.isWeb = true) (h : ofRemote remote revision = .ok l) :
    ∃ tail, Url.pathIn l.root.text = Url.writePath (encodedSegments u ++ tail) ∧
      ((∀ s ∈ (trim revision).splitOn '/', Url.Steady s) → tail = revisionSegments l.family revision) ∧
      (Url.pathIn l.root.text = Url.writePath (u.repositorySegments ++ tail) ↔
        ∀ s ∈ u.repositorySegments, '%' ∉ s ∧ Url.isDots s = false) := by
  have hparted := parted_of_ofRemote h
  obtain ⟨tail, hroot, hsteady⟩ := exists_directories_root hform hurl h
  have hpath : Url.pathIn l.root.text = Url.writePath (encodedSegments u ++ tail) := by
    rw [hparted.pathIn_text, Url.path_eq_writePath, hroot]
  refine ⟨tail, hpath, hsteady, ?_⟩
  rw [← encodedSegments_eq_iff hurl hweb, hpath]
  constructor
  · intro heq
    have htail : ∀ s ∈ tail, '/' ∉ s := fun s hs hslash => by
      have hmem : s ∈ l.root.directories := List.mem_reverse.mp (hroot ▸ List.mem_append_right _ hs)
      exact hparted.segments s (Url.mem_segments_of_mem_directories hmem) '/' hslash (by decide)
    have hown : ∀ s ∈ u.repositorySegments ++ tail, '/' ∉ s := fun s hs =>
      (List.mem_append.mp hs).elim (fun hs => (Url.of_mem_repositorySegments hs).2.1) (htail s)
    have hencoded : ∀ s ∈ encodedSegments u ++ tail, '/' ∉ s := fun s hs =>
      (List.mem_append.mp hs).elim not_slash_of_mem_encodedSegments (htail s)
    by_cases hnone : u.repositorySegments ++ tail = []
    · rw [encodedSegments, (List.append_eq_nil_iff.mp hnone).1]
      rfl
    by_cases hempty : encodedSegments u ++ tail = []
    · -- Without any segments the path is a slash alone, as with one empty segment, which a repository has not.
      rw [hempty] at heq
      have hslash := Url.writePath_injective (List.cons_ne_nil [] []) hnone (by simp) hown heq
      rw [(List.append_eq_nil_iff.mp hempty).2, List.append_nil] at hslash
      exact absurd rfl (Url.of_mem_repositorySegments (hslash ▸ List.mem_cons_self)).1
    · exact List.append_cancel_right (Url.writePath_injective hempty hnone hencoded hown heq)
  · intro heq
    rw [heq]

/-- A blank in the name of a repository: its code is encoded once more. -/
theorem path_of_web_remote_blank :
    let remote := "https://e.org/o/my%20repo.git".toList
    ∃ u l, contains "://".toList (trim remote) = true ∧ Url.parse? (trim remote) = some u ∧
      u.scheme.isWeb = true ∧ ofRemote remote "main".toList = .ok l ∧
      u.repositorySegments = ["o".toList, "my%20repo".toList] ∧
      Url.pathIn l.root.text = "/o/my%2520repo/blob/main".toList ∧
      Url.pathIn l.root.text ≠ Url.writePath (u.repositorySegments ++ revisionSegments l.family "main".toList) := by
  intro remote
  have hurl : Url.parse? (trim remote) = some
      { scheme := .https, host := "e.org".toList, port := none
        segments := ["my%20repo.git", "o"].map String.toList, query := none, fragment := none } := by
    decide +kernel
  have hremote : ofRemote remote "main".toList = .ok
      { family := .github
        root :=
          { scheme := .https, host := "e.org".toList, port := none
            segments := ["main", "blob", "my%2520repo", "o"].map String.toList
            query := none, fragment := none } } := by
    decide +kernel
  have hform : contains "://".toList (trim remote) = true := by decide +kernel
  obtain ⟨tail, hpath, htail, hiff⟩ := path_of_web_remote hform hurl rfl hremote
  have hrevision : tail = revisionSegments .github "main".toList := htail (by decide)
  refine ⟨_, _, hform, hurl, rfl, hremote, by decide, by decide, fun heq => ?_⟩
  rw [← hrevision] at heq
  exact absurd (hiff.mp heq) (by decide)

end Location

end ReqTrace
