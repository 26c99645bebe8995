/-
Module: ReqTrace.Proofs.Url.Path
Purpose: Paths of URLs and the segments that are added to them. Added segments follow the directories of a
  path one by one; only a segment that comes to mean the directory above when tabs and line breaks are dropped
  takes one away, and never more than has been added.
Main exports: Url.writePath, Url.path_eq_writePath, Url.writePath_injective, Url.written, Url.IsPlain,
  Url.directories_addSegments, Url.exists_directories_addSegments
-/
import ReqTrace.Proofs.Text.Pieces
import ReqTrace.Proofs.Url.Percent

namespace ReqTrace

namespace Url

/-! ### Written paths -/

/-- The path with given segments, the first one first. -/
def writePath (segments : List Text) : Text :=
  '/' :: Text.join ['/'] segments

theorem writePath_eq_flatMap {segments : List Text} (nonempty : segments ≠ []) :
    writePath segments = segments.flatMap ('/' :: ·) := by
  induction segments with
  | nil => exact absurd rfl nonempty
  | cons first segments ih =>
      cases segments with
      | nil => simp [writePath, Text.join]
      | cons second segments =>
          rw [List.flatMap_cons, ← ih (List.cons_ne_nil _ _), writePath, writePath, Text.join, Text.join,
            List.intercalate_cons_cons]
          simp

/-- More segments follow a path that has some. -/
theorem writePath_append {segments : List Text} (nonempty : segments ≠ []) (more : List Text) :
    writePath (segments ++ more) = writePath segments ++ more.flatMap ('/' :: ·) := by
  rw [writePath_eq_flatMap nonempty, writePath_eq_flatMap (by simp [nonempty]), List.flatMap_append]

/-- A path is known by its segments. -/
theorem writePath_injective {segments segments' : List Text} (nonempty : segments ≠ [])
    (nonempty' : segments' ≠ []) (plain : ∀ s ∈ segments, '/' ∉ s) (plain' : ∀ s ∈ segments', '/' ∉ s)
    (h : writePath segments = writePath segments') : segments = segments' := by
  have hjoin : Text.join ['/'] segments = Text.join ['/'] segments' := List.tail_eq_of_cons_eq h
  rw [← List.splitOn_intercalate '/' plain nonempty, ← List.splitOn_intercalate '/' plain' nonempty']
  exact congrArg (List.splitOn '/') hjoin

variable (u : Url)

theorem path_eq_writePath : u.path = writePath u.directories.reverse := by
  unfold directories
  split
  · rename_i hroot
    rw [path, hroot]
    rfl
  · rfl

theorem mem_segments_of_mem_directories {u : Url} {s : Text} (h : s ∈ u.directories) : s ∈ u.segments := by
  unfold directories at h
  split at h
  · cases h
  · exact h

theorem segments_eq_of_directories {u : Url} {segments : List Text} (h : u.directories = segments)
    (nonempty : segments ≠ []) : u.segments = segments := by
  unfold directories at h
  split at h
  · exact absurd h.symm nonempty
  · exact h

theorem path_eq_slash_iff : u.path = ['/'] ↔ u.directories = [] := by
  rw [path_eq_writePath, ← List.reverse_eq_nil_iff]
  have hdirectories : u.directories.reverse ≠ [[]] := by
    unfold directories
    split
    · simp
    · rename_i hroot
      simpa [List.reverse_eq_iff] using hroot
  generalize u.directories.reverse = segments at hdirectories
  constructor
  · intro h
    by_contra hnonempty
    obtain ⟨first, others, rfl⟩ := List.exists_cons_of_ne_nil hnonempty
    rw [writePath_eq_flatMap hnonempty, List.flatMap_cons, List.cons_append, List.cons.injEq,
      List.append_eq_nil_iff, List.flatMap_eq_nil_iff] at h
    obtain ⟨-, rfl, hothers⟩ := h
    have hlast : others = [] := List.eq_nil_iff_forall_not_mem.mpr fun s hs => List.cons_ne_nil _ _ (hothers s hs)
    exact hdirectories (by rw [hlast])
  · rintro rfl
    rfl

/-! ### Segments in code

A segment may be written with codes and still mean a directory. What is encoded never does, unless the text
itself is one or two dots. -/

/-- The texts that differ from a text in lower case at most by letters in upper case. -/
def casings : Text → List Text
  | [] => [[]]
  | c :: t => (casings t).flatMap fun rest => [c :: rest, c.toUpper :: rest]

theorem eq_or_eq_toUpper {c d : Char} (h : c.toLower = d) : c = d ∨ c = d.toUpper := by
  by_cases hupper : c.val ≥ 'A'.val ∧ c.val ≤ 'Z'.val
  · have hletter : ∀ n < 26, (Char.ofNat (65 + n)).toLower.toUpper = Char.ofNat (65 + n) := by decide
    have hlow : 65 ≤ c.toNat := hupper.1
    have hhigh : c.toNat ≤ 90 := hupper.2
    have hc := hletter (c.toNat - 65) (by omega)
    rw [show 65 + (c.toNat - 65) = c.toNat by omega, Char.ofNat_toNat, h] at hc
    exact .inr hc.symm
  · delta Char.toLower at h
    rw [dif_neg hupper] at h
    exact .inl h

theorem mem_casings {t lower : Text} (h : t.map Char.toLower = lower) : t ∈ casings lower := by
  induction t generalizing lower with
  | nil =>
      rw [← h]
      exact List.mem_singleton_self []
  | cons c t ih =>
      rw [← h, List.map_cons, casings, List.mem_flatMap]
      refine ⟨t, ih rfl, ?_⟩
      rcases eq_or_eq_toUpper (c := c) rfl with hc | hc
      · simp [← hc]
      · simp [← hc]

theorem decode?_of_isHere {segment : Text} (h : isHere segment = true) :
    Percent.decode? segment = some ['.'] := by
  have hall : ∀ t ∈ casings "%2e".toList, Percent.decode? t = some ['.'] := by decide
  simp only [isHere, Bool.or_eq_true, beq_iff_eq] at h
  rcases h with rfl | h
  · decide
  · exact hall _ (mem_casings h)

theorem decode?_of_isUp {segment : Text} (h : isUp segment = true) :
    Percent.decode? segment = some ['.', '.'] := by
  have hall : ∀ up ∈ ["..", ".%2e", "%2e.", "%2e%2e"], ∀ t ∈ casings up.toList,
      Percent.decode? t = some ['.', '.'] := by decide
  simp only [isUp, List.any_eq_true, beq_iff_eq] at h
  obtain ⟨up, hup, h⟩ := h
  exact hall up hup _ (mem_casings h)

/-- Whether a segment is one dot or two, so that adding it adds nothing. -/
def isDots (segment : Text) : Bool :=
  segment == ['.'] || segment == ['.', '.']

theorem isDots_of_encode {segment : Text}
    (h : isUp (Percent.encode Percent.inSegment segment) = true ∨
      isHere (Percent.encode Percent.inSegment segment) = true) : isDots segment = true := by
  have hdecode := Percent.decode?_encode (p := Percent.inSegment) (by decide) segment
  rcases h with h | h
  · rw [decode?_of_isUp h] at hdecode
    rw [← Option.some.inj hdecode]
    rfl
  · rw [decode?_of_isHere h] at hdecode
    rw [← Option.some.inj hdecode]
    rfl

/-! ### Added segments -/

/-- Whether a character of an added segment is kept: tabs and line breaks are not. -/
def isKept (c : Char) : Bool :=
  c != '\t' && c != '\n' && c != '\r'

/-- A segment as it stands in the path that it is added to. -/
def written (segment : Text) : Text :=
  Percent.encode Percent.inSegment (segment.filter isKept)

/-- A segment that is dots already if it is dots without its tabs and line breaks. -/
def Steady (segment : Text) : Prop :=
  isDots (segment.filter isKept) = true → isDots segment = true

instance (segment : Text) : Decidable (Steady segment) :=
  inferInstanceAs (Decidable (_ → _))

variable {u} {segment : Text}

theorem steady_of_kept (h : ∀ c ∈ segment, isKept c = true) : Steady segment := by
  rw [Steady, List.filter_eq_self.mpr h]
  exact id

theorem addSegment_of_isDots (h : isDots segment = true) : u.addSegment segment = u := by
  simp only [isDots, Bool.or_eq_true, beq_iff_eq] at h
  rw [addSegment, if_pos h]

theorem segments_addSegment (h : isDots segment = false) :
    (u.addSegment segment).segments = finish u.directories (written segment) := by
  simp only [isDots, Bool.or_eq_false_iff, beq_eq_false_iff_ne] at h
  rw [addSegment, if_neg (not_or.mpr h)]
  rfl

theorem segments_addSegment_of_steady (h : isDots segment = false) (steady : Steady segment) :
    (u.addSegment segment).segments = written segment :: u.directories := by
  have hkept : isDots (segment.filter isKept) ≠ true := fun hdots => by
    rw [steady hdots] at h
    cases h
  have hup : ¬ isUp (written segment) = true := fun hup => hkept (isDots_of_encode (.inl hup))
  have hhere : ¬ isHere (written segment) = true := fun hhere => hkept (isDots_of_encode (.inr hhere))
  rw [segments_addSegment h, finish, if_neg hup, if_neg hhere]

theorem directories_eq {first : Text} {others : List Text} (h : u.segments = first :: others)
    (nonempty : first ≠ [] ∨ others ≠ []) : u.directories = first :: others := by
  rw [directories, h, if_neg]
  rintro heq
  cases heq
  exact nonempty.elim (· rfl) (· rfl)

/-- Added segments follow the directories of a path. The path `/` has none, so the first segment that
    is added to it must not be empty. -/
theorem directories_addSegments {segments : List Text} (steady : ∀ s ∈ segments, Steady s)
    (start : u.directories ≠ [] ∨ ∀ s ∈ segments, written s ≠ []) :
    (u.addSegments segments).directories =
      ((segments.filter (! isDots ·)).map written).reverse ++ u.directories := by
  induction segments generalizing u with
  | nil => rfl
  | cons segment segments ih =>
      obtain ⟨hfirst, hrest⟩ := List.forall_mem_cons.mp steady
      rw [addSegments, List.foldl_cons]
      change ((u.addSegment segment).addSegments segments).directories = _
      by_cases hdots : isDots segment = true
      · rw [addSegment_of_isDots hdots, ih hrest (start.imp_right fun h s hs => h s (List.mem_cons_of_mem _ hs)),
          List.filter_cons_of_neg (by simp [hdots])]
      · have hdots : isDots segment = false := by simpa using hdots
        have hnext : (u.addSegment segment).directories = written segment :: u.directories := by
          refine directories_eq (segments_addSegment_of_steady hdots hfirst) ?_
          exact start.symm.imp_left fun h => h segment List.mem_cons_self
        rw [ih hrest (.inl (by simp [hnext])), hnext, List.filter_cons_of_pos (by simp [hdots])]
        simp

/-- A segment that stands in a path as it has been added. -/
structure IsPlain (segment : Text) : Prop where
  steady : Steady segment
  notDots : isDots segment = false
  written_eq : written segment = segment
  nonempty : segment ≠ []

instance (segment : Text) : Decidable (IsPlain segment) :=
  decidable_of_iff (Steady segment ∧ isDots segment = false ∧ written segment = segment ∧ segment ≠ [])
    ⟨fun h => ⟨h.1, h.2.1, h.2.2.1, h.2.2.2⟩, fun h => ⟨h.steady, h.notDots, h.written_eq, h.nonempty⟩⟩

theorem directories_addSegments_plain {segments : List Text} (plain : ∀ s ∈ segments, IsPlain s) :
    (u.addSegments segments).directories = segments.reverse ++ u.directories := by
  have hfilter : segments.filter (! isDots ·) = segments :=
    List.filter_eq_self.mpr fun s hs => by simp [(plain s hs).notDots]
  have hwritten : segments.map written = segments :=
    (List.map_congr_left fun s hs => (plain s hs).written_eq).trans (List.map_id _)
  have hstart : ∀ s ∈ segments, written s ≠ [] := fun s hs => by
    rw [(plain s hs).written_eq]
    exact (plain s hs).nonempty
  rw [directories_addSegments (fun s hs => (plain s hs).steady) (.inr hstart), hfilter, hwritten]

/-- Whatever is added to a path below some directories, it stays below them. -/
theorem exists_directories_addSegments {added base : List Text} (h : u.directories = added ++ base)
    (hadded : added ≠ []) (hbase : base ≠ []) (segments : List Text) :
    ∃ added', (u.addSegments segments).directories = added' ++ base := by
  induction segments generalizing u added with
  | nil => exact ⟨added, h⟩
  | cons segment segments ih =>
      have hnext : ∃ added', added' ≠ [] ∧ (u.addSegment segment).directories = added' ++ base := by
        by_cases hdots : isDots segment = true
        · rw [addSegment_of_isDots hdots]
          exact ⟨added, hadded, h⟩
        · have hsegments := segments_addSegment (u := u) (by simpa using hdots)
          have hlonger : ∀ (first : Text) (added' : List Text),
              (u.addSegment segment).segments = first :: (added' ++ base) →
              ∃ added', added' ≠ [] ∧ (u.addSegment segment).directories = added' ++ base :=
            fun first added' heq => ⟨first :: added', List.cons_ne_nil _ _,
              directories_eq heq (.inr (by simp [hbase]))⟩
          obtain ⟨innermost, outer, rfl⟩ := List.exists_cons_of_ne_nil hadded
          rw [h, finish, List.cons_append, above] at hsegments
          split at hsegments
          · split at hsegments
            · exact hlonger [] (innermost :: outer) hsegments
            · exact hlonger [] outer hsegments
          · split at hsegments
            · exact hlonger [] (innermost :: outer) hsegments
            · exact hlonger _ (innermost :: outer) hsegments
      obtain ⟨added', hadded', hdirectories⟩ := hnext
      exact ih hdirectories hadded'

end Url

end ReqTrace
