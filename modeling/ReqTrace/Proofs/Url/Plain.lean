/-
Module: ReqTrace.Proofs.Url.Plain
Purpose: How a URL is read in which nothing has to be encoded. Its host, its port and the segments of its path are
  what stands between the marks.
Main exports: Host.IsName, Url.parse?_plain, Url.base_of_isName, Url.resolve_eq_reverse, Url.segments_plain
-/
import ReqTrace.Proofs.Url.Reading

namespace ReqTrace

open Text

/-! ### Parts of plain URLs -/

namespace Url

variable {scheme : Scheme} {host rest : Text}

theorem cleanEnd_eq_self {t : Text} (h : ∀ c ∈ t, IsPrintable c) : cleanEnd t = t := by
  have hend : ∀ c ∈ t.getLast?, decide (c ≤ ' ') = false := by
    intro c hc
    have hlow : 0x20 < c.toNat := (h c (List.mem_of_getLast? hc)).1
    exact decide_eq_false (Nat.not_le_of_lt hlow)
  rw [cleanEnd, dropWhileEnd_eq_self hend]
  exact List.filter_eq_self.mpr fun c hc => isKept_of_isPrintable (h c hc)

/-- A plain authority goes up to the first slash. -/
theorem parse?_plain (scheme : Scheme) (rest : Text) {authority : Text} (nonempty : authority ≠ [])
    (marks : ∀ c ∈ authority, c ∉ Host.marks) (printable : ∀ c ∈ authority ++ rest, IsPrintable c)
    (slash : ∀ c ∈ rest.head?, c = '/') :
    parse? (scheme.text ++ "://".toList ++ (authority ++ rest)) = ofParts? scheme authority rest := by
  have hgoes : ∀ c ∈ authority, (! endsAuthority scheme c) = true := fun c hc => by
    rw [endsAuthority_of_not_mark (marks c hc)]
    rfl
  have hpast : pastSlashes scheme (authority ++ rest) = authority ++ rest :=
    pastSlashes_eq_self fun _ c more heq =>
      isSlash_of_endsAuthority (endsAuthority_of_not_mark (marks c (mem_of_append_eq_cons nonempty heq)))
  have hrest : rest.takeWhile (! endsAuthority scheme ·) = [] ∧ rest.dropWhile (! endsAuthority scheme ·) = rest := by
    cases rest with
    | nil => exact ⟨rfl, rfl⟩
    | cons c rest =>
        obtain rfl := slash c rfl
        exact ⟨rfl, rfl⟩
  have hname : dropCredentials authority = authority :=
    dropCredentials_eq_self fun hat => marks '@' hat (by decide)
  rw [parse?_text_append, cleanEnd_eq_self printable, hpast, List.takeWhile_append_of_pos hgoes,
    List.dropWhile_append_of_pos hgoes, hrest.1, hrest.2, List.append_nil, hname]

theorem cutHost_append {host after : Text} (plain : ∀ c ∈ host, c ≠ ':' ∧ c ≠ '[')
    (colon : ∀ c ∈ after.head?, c = ':') : cutHost false (host ++ after) = (host, after) := by
  induction host with
  | nil =>
      cases after with
      | nil => rfl
      | cons c after =>
          obtain rfl := colon c rfl
          rfl
  | cons c host ih =>
      obtain ⟨⟨hcolon, hbracket⟩, hhost⟩ := List.forall_mem_cons.mp plain
      simp [cutHost, hcolon, hbracket, ih hhost]

end Url

/-! ### Hosts -/

namespace Host

/-- A host that is no address in brackets and that is found as it is in the URL that it makes up. -/
structure IsName (host : Text) : Prop where
  read : ∃ u, Url.parse? ("https://".toList ++ host) = some u ∧ u.host = host
  unbracketed : host.head? ≠ some '['

namespace IsName

variable {host : Text}

theorem nonempty (h : IsName host) : host ≠ [] := by
  rintro rfl
  obtain ⟨u, hread, -⟩ := h.read
  have hnone : Url.parse? ("https://".toList ++ []) = none := by decide +kernel
  rw [hnone] at hread
  cases hread

theorem printable (h : IsName host) : ∀ c ∈ host, IsPrintable c := by
  obtain ⟨u, hread, hhost⟩ := h.read
  rw [← hhost]
  exact (Url.printable_of_parse? hread).host

theorem not_mark (h : IsName host) : ∀ c ∈ host, c ∉ marks := by
  obtain ⟨u, hread, hhost⟩ := h.read
  rw [← hhost]
  exact Url.not_mark_of_parse? hread

theorem exists_ofWeb? (h : IsName host) : ofWeb? (Url.cutHost false host).1 = some host := by
  obtain ⟨u, hread, hhost⟩ := h.read
  have hparts := Url.parse?_plain .https [] h.nonempty h.not_mark
    (by simpa using h.printable) (by simp)
  rw [List.append_nil] at hparts
  rw [show "https://".toList = Scheme.https.text ++ "://".toList from rfl, hparts] at hread
  simp only [Url.ofParts?, Option.bind_eq_bind, Option.bind_eq_some_iff] at hread
  obtain ⟨name, hname, ⟨port, _⟩, -, heq⟩ := hread
  have hsame : name = u.host := by
    cases heq
    rfl
  exact hname.trans (congrArg some (hsame.trans hhost))

theorem allowed (h : IsName host) : ∀ c ∈ host, Domain.isForbidden c = false := by
  rcases bracketed_or_allowed h.exists_ofWeb? with hbracketed | hallowed
  · refine absurd ?_ h.unbracketed
    simp only [bracketed?, Option.bind_eq_bind, Option.bind_eq_some_iff] at hbracketed
    obtain ⟨inner, -, pieces, -, heq⟩ := hbracketed
    cases heq
    rfl
  · exact hallowed

theorem cutHost_append (h : IsName host) (after : Text) (colon : ∀ c ∈ after.head?, c = ':') :
    Url.cutHost false (host ++ after) = (host, after) := by
  refine Url.cutHost_append (fun c hc => ?_) colon
  have hallowed := h.allowed c hc
  constructor <;> rintro rfl <;> exact absurd hallowed (by decide)

/-- A name is a host in URLs of all schemes. -/
theorem readHost? (h : IsName host) (scheme : Scheme) : Url.readHost? scheme host = some host := by
  unfold Url.readHost?
  split
  · have hcut := h.cutHost_append [] (by simp)
    rw [List.append_nil] at hcut
    have hread := h.exists_ofWeb?
    rwa [hcut] at hread
  · have hforbidden : ¬ (host.any isForbiddenOpaque = true) := by
      have hsub : ∀ c ∈ '\x00' :: "\t\n\r #/:<>?@[\\]^|".toList, Domain.isForbidden c = true := by decide
      intro hany
      obtain ⟨c, hc, hopaque⟩ := List.any_eq_true.mp hany
      have hmem : c ∈ '\x00' :: "\t\n\r #/:<>?@[\\]^|".toList := by
        simpa [isForbiddenOpaque] using hopaque
      exact absurd ((h.allowed c hc).symm.trans (hsub c hmem)) (by decide)
    have hplain : Percent.encode Percent.inOpaqueHost host = host :=
      Percent.encode_eq_self_iff.mpr fun c hc => Percent.isControlOrWide_of_isPrintable (h.printable c hc)
    rw [ofOpaque?, if_neg h.unbracketed, if_neg (not_or.mpr ⟨h.nonempty, hforbidden⟩), hplain]

end IsName

end Host

/-! ### Ports -/

namespace Url

/-- A port with its colon, given by its digits. -/
def writePort : Option Text → Text
  | some digits => ':' :: digits
  | none => []

/-- Decimal digits of a number below `2 ^ 16`. -/
def IsPort (digits : Text) : Prop :=
  (∀ c ∈ digits, c.isDigit = true) ∧ Digit.number 10 (digits.map Digit.value) < Nat.pow 2 16

instance (digits : Text) : Decidable (IsPort digits) :=
  inferInstanceAs (Decidable (_ ∧ _))

/-- The port that digits give to a URL. No digits give none, and neither do those of the port that need not be
    written. -/
def portOf (scheme : Scheme) (digits : Text) : Option Nat :=
  let port := Digit.number 10 (digits.map Digit.value)
  if digits = [] ∨ some port = scheme.defaultPort? then none else some port

variable {scheme : Scheme} {port : Option Text}

theorem readPort?_writePort (h : ∀ digits ∈ port, IsPort digits) :
    readPort? scheme (writePort port) = some (port.bind (portOf scheme), []) := by
  cases port with
  | none => rfl
  | some digits =>
      obtain ⟨hdigits, hrange⟩ := h digits rfl
      simp [writePort, readPort?, List.takeWhile_eq_self_iff.mpr hdigits, List.dropWhile_eq_nil_iff.mpr hdigits,
        hrange, portOf]

/-! ### Paths -/

theorem isDots_eq_false {s : Text} (named : ∃ c ∈ s, c ≠ '.') : isDots s = false := by
  obtain ⟨c, hc, hdot⟩ := named
  by_contra hdots
  simp only [isDots, Bool.not_eq_false, Bool.or_eq_true, beq_iff_eq] at hdots
  rcases hdots with rfl | rfl <;> simp at hc <;> exact hdot hc

/-- A segment in which nothing has to be encoded means no directory, unless it is dots. -/
theorem not_directory {s : Text} (plain : ∀ c ∈ s, Percent.inSegment c = false) (named : ∃ c ∈ s, c ≠ '.') :
    isUp s = false ∧ isHere s = false := by
  have hdots : ¬ isDots s = true := by simp [isDots_eq_false named]
  rw [← Percent.encode_eq_self_iff.mpr plain]
  constructor
  · exact Bool.eq_false_iff.mpr fun hup => hdots (isDots_of_encode (.inl hup))
  · exact Bool.eq_false_iff.mpr fun hhere => hdots (isDots_of_encode (.inr hhere))

theorem resolve_eq_reverse {parts : List Text} (nonempty : parts ≠ [])
    (plain : ∀ s ∈ parts, isUp s = false ∧ isHere s = false) : resolve parts = parts.reverse := by
  have henter : ∀ parts directories : List Text, (∀ s ∈ parts, isUp s = false ∧ isHere s = false) →
      parts.foldl enter directories = parts.reverse ++ directories := by
    intro parts
    induction parts with
    | nil => simp
    | cons s parts ih =>
        intro directories h
        obtain ⟨⟨hup, hhere⟩, hparts⟩ := List.forall_mem_cons.mp h
        rw [List.foldl_cons, ih _ hparts]
        simp [enter, hup, hhere]
  obtain ⟨before, last, rfl⟩ := (List.eq_nil_or_concat parts).resolve_left nonempty
  rw [List.concat_eq_append] at plain ⊢
  obtain ⟨hup, hhere⟩ := plain last (by simp)
  have hbefore := henter before [] fun s hs => plain s (List.mem_append_left _ hs)
  simp [resolve, hbefore, finish, hup, hhere]

/-- The segments of a path in which nothing has to be encoded. -/
theorem segments_plain {t : Text} (chars : ∀ c ∈ t, Percent.inPath c = false ∧ c ≠ '\\')
    (plain : ∀ s ∈ t.splitOn '/', isUp s = false ∧ isHere s = false) :
    resolve ((pathParts scheme ('/' :: t)).map (Percent.encode Percent.inPath)) = (t.splitOn '/').reverse := by
  have hparts : pathParts scheme ('/' :: t) = t.splitOn '/' := by
    have hslash : isSlash scheme '/' = true := rfl
    rw [pathParts, if_pos hslash]
    refine splitOnP_congr fun c hc => ?_
    simp [isSlash, (chars c hc).2]
  have hkept : (t.splitOn '/').map (Percent.encode Percent.inPath) = t.splitOn '/' := by
    refine (List.map_congr_left fun s hs => ?_).trans (List.map_id _)
    exact Percent.encode_eq_self_iff.mpr fun c hc => (chars c (of_mem_splitOnP hs c hc).1).1
  rw [hparts, hkept, resolve_eq_reverse (List.splitOn_ne_nil _ _) plain]

/-! ### URLs that start with a name -/

theorem of_mem_writePort (h : ∀ digits ∈ port, IsPort digits) :
    ∀ c ∈ writePort port, IsPrintable c ∧ c ∉ Host.marks := by
  cases port with
  | none => simp [writePort]
  | some digits =>
      refine List.forall_mem_cons.mpr ⟨by decide, fun c hc => ?_⟩
      have hdigit := (h digits rfl).1 c hc
      have hmarks : ∀ c ∈ Host.marks, c.isDigit = false := by decide
      refine ⟨?_, fun hmark => absurd (hdigit.symm.trans (hmarks c hmark)) (by decide)⟩
      simp only [Char.isDigit, Bool.and_eq_true, decide_eq_true_eq] at hdigit
      have hlow : 48 ≤ c.toNat := hdigit.1
      have hhigh : c.toNat ≤ 57 := hdigit.2
      exact ⟨by omega, by omega⟩

theorem of_mem_authority {host : Text} (hname : Host.IsName host) (hport : ∀ digits ∈ port, IsPort digits) :
    ∀ c ∈ host ++ writePort port, IsPrintable c ∧ c ∉ Host.marks := fun c hc =>
  (List.mem_append.mp hc).elim (fun hc => ⟨hname.printable c hc, hname.not_mark c hc⟩) (of_mem_writePort hport c)

/-- A URL with a name as its host, a port and a path that is nothing or starts with a slash. -/
theorem parse?_name (scheme : Scheme) (rest : Text) {host : Text} (hname : Host.IsName host)
    (hport : ∀ digits ∈ port, IsPort digits) (path : ∀ c ∈ rest, Percent.inPath c = false)
    (slash : ∀ c ∈ rest.head?, c = '/') :
    parse? (scheme.text ++ "://".toList ++ (host ++ writePort port ++ rest)) = some
      { scheme, host, port := port.bind (portOf scheme)
        segments := resolve ((pathParts scheme rest).map (Percent.encode Percent.inPath))
        query := none, fragment := none } := by
  have hchars := of_mem_authority hname hport
  have hprintable : ∀ c ∈ host ++ writePort port ++ rest, IsPrintable c := fun c hc =>
    (List.mem_append.mp hc).elim (fun hc => (hchars c hc).1) fun hc => Percent.isPrintable_of_inPath (path c hc)
  have hcolon : ∀ c ∈ (writePort port).head?, c = ':' := by
    cases port <;> simp [writePort]
  have hpath : rest.takeWhile (fun c => c != '?' && c != '#') = rest :=
    List.takeWhile_eq_self_iff.mpr fun c hc => by
      have hplain := path c hc
      simp only [Percent.inPath, Bool.or_eq_false_iff, beq_eq_false_iff_ne] at hplain
      simp [hplain]
  rw [parse?_plain scheme rest (by simp [hname.nonempty]) (fun c hc => (hchars c hc).2) hprintable slash, ofParts?,
    hname.cutHost_append _ hcolon]
  simp [hname.readHost?, readPort?_writePort hport, hpath]

theorem base_of_isName {host : Text} (hname : Host.IsName host) :
    parse? ("https://".toList ++ host) = some
      { scheme := .https, host, port := none, segments := [[]], query := none, fragment := none } := by
  have hport : ∀ digits ∈ (none : Option Text), IsPort digits := by simp
  have hbase := parse?_name .https [] hname hport (by simp) (by simp)
  rw [writePort, List.append_nil, List.append_nil] at hbase
  exact hbase

end Url

end ReqTrace
