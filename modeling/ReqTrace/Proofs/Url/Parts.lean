/-
Module: ReqTrace.Proofs.Url.Parts
Purpose: The parts of written URLs. No host holds a character that ends it, and no segment one that ends a
  path, so authority and path are found in the written form where they have been put.
Main exports: Host.marks, Host.bracketed_or_allowed, Url.Parted, Url.not_mark_of_parse?, Url.authorityIn,
  Url.pathIn, Location.parted_of_repositoryUrl, Location.parted_of_ofRemote
-/
import ReqTrace.Proofs.Address
import ReqTrace.Proofs.Url.Path

namespace ReqTrace

open Text

/-! ### Hosts -/

namespace Host

/-- The characters that end a host, and the at sign, which ends the user name before it. -/
def marks : Text := "/?#@\\".toList

/-- The host of a web URL is an address in brackets, or it holds allowed characters only. -/
theorem bracketed_or_allowed {t host : Text} (h : ofWeb? t = some host) :
    bracketed? t = some host ∨ ∀ c ∈ host, Domain.isForbidden c = false := by
  rcases ofWeb?_cases h with hbracketed | ⟨n, rfl⟩ | ⟨name, hname⟩
  · exact .inl hbracketed
  · have hdigits : ∀ c ∈ "0123456789abcdef*".toList, Domain.isForbidden c = false := by decide
    refine .inr fun c hc => ?_
    rcases mem_writeAddress4 hc with rfl | ⟨k, rfl⟩
    · decide
    · exact hdigits _ (digitChar_mem k)
  · exact .inr (Domain.isForbidden_of_mem_write? hname)

theorem not_mark_of_mem_bracketed? {t host : Text} (h : bracketed? t = some host) : ∀ c ∈ host, c ∉ marks := by
  have hbrackets : ∀ c ∈ "[:]".toList, c ∉ marks := by decide
  have hdigits : ∀ c ∈ "0123456789abcdef*".toList, c ∉ marks := by decide
  intro c hc
  rcases mem_bracketed? h hc with hbracket | ⟨k, rfl⟩
  · exact hbrackets c hbracket
  · exact hdigits _ (digitChar_mem k)

theorem not_mark_of_mem_ofWeb? {t host : Text} (h : ofWeb? t = some host) : ∀ c ∈ host, c ∉ marks := by
  rcases bracketed_or_allowed h with hbracketed | hallowed
  · exact not_mark_of_mem_bracketed? hbracketed
  · have hforbidden : ∀ c ∈ marks, Domain.isForbidden c = true := by decide
    intro c hc hmark
    exact absurd ((hallowed c hc).symm.trans (hforbidden c hmark)) (by decide)

theorem not_mark_of_mem_ofOpaque? {t host : Text} (h : ofOpaque? t = some host) : ∀ c ∈ host, c ∉ marks := by
  rcases ofOpaque?_cases h with hbracketed | ⟨hallowed, rfl⟩
  · exact not_mark_of_mem_bracketed? hbracketed
  · have hforbidden : ∀ c ∈ marks, isForbiddenOpaque c = true := by decide
    have hcodes : ∀ c ∈ Percent.codeChars, c ∉ marks := by decide
    intro c hc hmark
    rcases Percent.mem_encode hc with ⟨hmem, -⟩ | hcode
    · exact absurd ((hallowed c hmem).symm.trans (hforbidden c hmark)) (by decide)
    · exact hcodes c hcode hmark

end Host

/-! ### URLs whose parts can be told apart -/

namespace Url

theorem isKept_of_isPrintable {c : Char} (h : IsPrintable c) : isKept c = true := by
  have hlow := h.1
  simp only [isKept, Bool.and_eq_true, bne_iff_ne]
  refine ⟨⟨?_, ?_⟩, ?_⟩ <;> rintro rfl <;> revert hlow <;> decide

/-- A URL whose parts hold no characters that end them. -/
structure Parted (u : Url) : Prop where
  host : ∀ c ∈ u.host, c ∉ Host.marks
  segments : ∀ segment ∈ u.segments, ∀ c ∈ segment, c ∉ "/?#".toList

theorem addSegments_eq_of_directories {u : Url} {added segments : List Text}
    (h : (u.addSegments added).directories = segments) (nonempty : segments ≠ []) :
    u.addSegments added = { u with segments } := by
  rw [addSegments_eq, segments_eq_of_directories h nonempty]

theorem not_mark_of_parse? {t : Text} {u : Url} (h : parse? t = some u) : ∀ c ∈ u.host, c ∉ Host.marks := by
  simp only [parse?, Option.bind_eq_bind, Option.bind_eq_some_iff] at h
  obtain ⟨⟨scheme, _⟩, _, _, _, host, hhost, ⟨port, _⟩, _, heq⟩ := h
  cases heq
  unfold readHost? at hhost
  split at hhost
  · exact Host.not_mark_of_mem_ofWeb? hhost
  · exact Host.not_mark_of_mem_ofOpaque? hhost

namespace Parted

variable {u : Url}

theorem addSegments (h : u.Parted) (segments : List Text) : (u.addSegments segments).Parted := by
  have hencoded : ∀ c ∈ "/?#".toList, Percent.inSegment c = true ∧ c ∉ Percent.codeChars := by decide
  have hsegments := forall_mem_addSegments (P := fun s => ∀ c ∈ s, c ∉ "/?#".toList) (by simp)
    (fun _ c hc hmark => Percent.not_mem_encode (hencoded c hmark).1 (hencoded c hmark).2 hc) h.segments segments
  rw [addSegments_eq]
  exact ⟨h.host, hsegments⟩

theorem dropEmptyEnd (h : u.Parted) : u.dropEmptyEnd.Parted := by
  rw [dropEmptyEnd_eq]
  exact ⟨h.host, fun s hs => h.segments s (mem_of_mem_dropEmptyEnd hs)⟩

end Parted

/-! ### Parts of an address

What a reader of an address finds: after `://` and up to a slash, a question mark or a hash sign stands the
authority, which has user names and passwords before an at sign; from there up to a question mark or a hash sign
goes the path. -/

/-- Whether a character ends the authority of an address. -/
def endsAuthorityIn (c : Char) : Bool :=
  c == '/' || c == '\\' || c == '?' || c == '#'

/-- What stands after the scheme of an address. -/
def afterScheme (address : Text) : Text :=
  (address.dropWhile (· != ':')).drop "://".length

/-- The user name, the host and the port in an address. -/
def authorityIn (address : Text) : Text :=
  (afterScheme address).takeWhile (! endsAuthorityIn ·)

/-- The path in an address. -/
def pathIn (address : Text) : Text :=
  ((afterScheme address).dropWhile (! endsAuthorityIn ·)).takeWhile fun c => c != '?' && c != '#'

variable {u : Url}

theorem afterScheme_text : afterScheme u.text = u.authority ++ u.path ++ u.tail := by
  have hscheme : ∀ c ∈ u.scheme.text, (c != ':') = true := by cases u.scheme <;> decide
  have htext : u.text = u.scheme.text ++ ':' :: ("//".toList ++ (u.authority ++ u.path ++ u.tail)) := by
    simp [text]
  rw [afterScheme, htext, dropWhile_append_cons _ hscheme (by decide)]
  rfl

namespace Parted

theorem not_endsAuthorityIn (h : u.Parted) : ∀ c ∈ u.authority, (! endsAuthorityIn c) = true := by
  have hends : ∀ {c}, endsAuthorityIn c = true → c ∈ Host.marks := by
    intro c hc
    simp only [endsAuthorityIn, Bool.or_eq_true, beq_iff_eq] at hc
    rcases hc with ((rfl | rfl) | rfl) | rfl <;> decide
  have hport : ∀ c ∈ ':' :: "0123456789abcdef*".toList, (! endsAuthorityIn c) = true := by decide
  intro c hc
  rcases List.mem_append.mp hc with hc | hc
  · simpa using fun hend => h.host c hc (hends hend)
  · split at hc
    · rcases List.mem_cons.mp hc with rfl | hc
      · decide
      · obtain ⟨k, rfl⟩ := exists_digitChar_of_mem_toDigits hc
        exact hport _ (List.mem_cons_of_mem _ (digitChar_mem k))
    · cases hc

theorem authorityIn_text (h : u.Parted) : authorityIn u.text = u.authority := by
  rw [authorityIn, afterScheme_text, List.append_assoc, path, List.cons_append]
  exact takeWhile_append_cons _ h.not_endsAuthorityIn (by decide)

theorem pathIn_text (h : u.Parted) : pathIn u.text = u.path := by
  have hpath : ∀ c ∈ u.path, (c != '?' && c != '#') = true := by
    have hmarks : ∀ {c}, c ∉ "/?#".toList → (c != '?' && c != '#') = true := by
      intro c hc
      simp at hc
      simp [hc]
    refine List.forall_mem_cons.mpr ⟨by decide, fun c hc => ?_⟩
    rcases mem_of_mem_join hc with hslash | ⟨part, hpart, hmem⟩
    · rw [List.mem_singleton.mp hslash]
      decide
    · exact hmarks (h.segments part (List.mem_reverse.mp hpart) c hmem)
  have hrest : (afterScheme u.text).dropWhile (! endsAuthorityIn ·) = u.path ++ u.tail := by
    rw [afterScheme_text, List.append_assoc, path, List.cons_append]
    exact dropWhile_append_cons _ h.not_endsAuthorityIn (by decide)
  rw [pathIn, hrest]
  have htail : u.tail = [] ∨ ∃ c rest, u.tail = c :: rest ∧ (c != '?' && c != '#') = false := by
    unfold tail
    cases u.query with
    | some query => exact .inr ⟨'?', _, rfl, by decide⟩
    | none =>
        cases u.fragment with
        | some fragment => exact .inr ⟨'#', _, rfl, by decide⟩
        | none => exact .inl rfl
  rcases htail with htail | ⟨c, rest, htail, hstop⟩
  · rw [htail, List.append_nil]
    exact List.takeWhile_eq_self_iff.mpr hpath
  · rw [htail]
    exact takeWhile_append_cons rest hpath hstop

/-- There is no user name in an address. -/
theorem not_mem_authorityIn (h : u.Parted) : '@' ∉ authorityIn u.text := by
  rw [h.authorityIn_text]
  intro hat
  rcases List.mem_append.mp hat with hhost | hport
  · exact h.host '@' hhost (by decide)
  · split at hport
    · rcases List.mem_cons.mp hport with hcolon | hdigit
      · cases hcolon
      · obtain ⟨k, hk⟩ := exists_digitChar_of_mem_toDigits hdigit
        exact absurd (hk ▸ digitChar_mem k) (by decide)
    · cases hport

end Parted

end Url

/-! ### Locations -/

namespace Location

theorem parted_of_repositoryUrl {remote : Text} {u : Url} (h : repositoryUrl remote = .ok u) : u.Parted := by
  obtain ⟨r, base, -, -, hbase, rfl⟩ := repositoryUrl_eq_ok_iff.mp h
  have hhost := Url.not_mark_of_parse? hbase
  refine Url.Parted.addSegments ?_ _
  exact ⟨hhost, by simp⟩

theorem parted_of_ofRemote {remote revision : Text} {l : Location} (h : ofRemote remote revision = .ok l) :
    l.root.Parted := by
  obtain ⟨u, hu, -, rfl⟩ := ofRemote_eq_ok_iff.mp h
  exact ((parted_of_repositoryUrl hu).dropEmptyEnd.addSegments _).addSegments _

/-- The URL of a file, in which parentheses are encoded. -/
def fileAt (l : Location) (relative : Text) : Url :=
  let url := l.root.addSegments (nonemptySegments relative)
  { url with segments := url.segments.map encodeParentheses }

theorem fileUrl_eq (l : Location) (relative : Text) : l.fileUrl relative = (l.fileAt relative).text := rfl

theorem parted_fileAt {l : Location} (h : l.root.Parted) (relative : Text) : (l.fileAt relative).Parted := by
  have hlong := h.addSegments (nonemptySegments relative)
  refine ⟨hlong.host, fun segment hsegment c hc => ?_⟩
  obtain ⟨plain, hplain, rfl⟩ := List.mem_map.mp hsegment
  obtain ⟨c', hc', hmem⟩ := List.mem_flatMap.mp hc
  have hcodes : ∀ x ∈ "%28%29".toList, x ∉ "/?#".toList := by decide
  split at hmem
  · exact hcodes c (List.mem_append_left "%29".toList hmem)
  · split at hmem
    · exact hcodes c (List.mem_append_right "%28".toList hmem)
    · rw [List.mem_singleton.mp hmem]
      exact hlong.segments plain hplain c' hc'

end Location

end ReqTrace
