/-
Module: ReqTrace.Proofs.Location.Credentials
Purpose: User names and passwords in a remote have no effect: the location is the one without them, or both fail for
  the same reason, and no address that is written has any.
Main exports: Text.contains_iff, Remote.parse?_text_append, Location.ofRemote_congr, Location.ofRemote_credentials
-/
import ReqTrace.Proofs.Url.Reading

namespace ReqTrace

open Text

/-! ### Remotes that are URLs -/

namespace Text

theorem contains_iff {part t : Text} : contains part t = true ↔ part <:+: t := by
  induction t with
  | nil => simp [contains]
  | cons c t ih => rw [contains, Bool.or_eq_true, List.isPrefixOf_iff_prefix, ih, List.infix_cons_iff]

end Text

namespace Remote

/-- A remote that starts with a scheme and two slashes is read as a URL. -/
theorem parse?_text_append (scheme : Scheme) (t : Text) :
    parse? (scheme.text ++ "://".toList ++ t) = ofUrl? (scheme.text ++ "://".toList ++ trimEnd t) := by
  have htrim : trim (scheme.text ++ "://".toList ++ t) = scheme.text ++ "://".toList ++ trimEnd t := by
    have hlead : trimStart (scheme.text ++ "://".toList ++ t) = scheme.text ++ "://".toList ++ t := by
      cases scheme <;> exact List.dropWhile_cons_of_neg (by decide)
    have hsplit : ∀ t : Text, scheme.text ++ "://".toList ++ t = (scheme.text ++ ":/".toList) ++ '/' :: t := by
      simp
    rw [trim, hlead, hsplit, hsplit]
    exact dropWhileEnd_append_stop isBlankChar _ t (by decide)
  have hslashes : contains "://".toList (scheme.text ++ "://".toList ++ trimEnd t) = true :=
    contains_iff.mpr ⟨scheme.text, trimEnd t, rfl⟩
  simp only [parse?, htrim, hslashes, if_true]

/-- No at sign gets into the host of a remote. -/
theorem not_mem_host {remote : Text} {r : Remote} (h : parse? remote = some r) : '@' ∉ r.host := by
  simp only [parse?] at h
  split at h
  · obtain ⟨url, hurl, heq⟩ := Option.bind_eq_some_iff.mp h
    cases heq
    exact fun hat => Url.not_mark_of_parse? hurl '@' hat (by decide)
  · obtain ⟨⟨authority, path⟩, -, hmore⟩ := Option.bind_eq_some_iff.mp h
    obtain ⟨-, -, heq⟩ := Option.bind_eq_some_iff.mp hmore
    cases heq
    intro hat
    have hother := List.mem_takeWhile_imp (List.mem_reverse.mp hat)
    simp at hother

end Remote

/-! ### Locations -/

/-- The same error about another remote. -/
def LocationError.about (remote : Text) : LocationError → LocationError
  | unsupported _ => unsupported remote
  | missingRepository _ => missingRepository remote
  | emptyRevision _ => emptyRevision remote

namespace Location

/-- A location depends only on what the remote says. -/
theorem ofRemote_congr {remote remote' : Text} (h : Remote.parse? remote = Remote.parse? remote') (revision : Text) :
    ofRemote remote revision = (ofRemote remote' revision).mapError (.about remote) := by
  have hrepository : repositoryUrl remote = (repositoryUrl remote').mapError (.about remote) := by
    unfold repositoryUrl
    rw [h]
    cases Remote.parse? remote' with
    | none => rfl
    | some r =>
        simp only
        split
        · rfl
        · generalize Url.parse? ("https://".toList ++ r.host) = parsed
          cases parsed <;> rfl
  unfold ofRemote
  rw [hrepository]
  cases repositoryUrl remote' with
  | error e => rfl
  | ok u =>
      by_cases hblank : trim revision = []
      · simp only [Except.mapError, bind, Except.bind, hblank, if_true]
        rfl
      · simp only [Except.mapError, bind, Except.bind, hblank, if_false]
        rfl

/-- What is kept at the start of an authority is a character of it, also when the end of the remote is cut. -/
theorem mem_of_cleanEnd {authority rest cut : Text} (hcut : cut <+: authority ++ rest)
    (host : ∃ c ∈ authority, Url.isKept c = true) {c : Char} {more : Text} (h : Url.cleanEnd cut = c :: more) :
    c ∈ authority := by
  have hcut := (prefix_dropWhileEnd (· ≤ ' ') cut).trans hcut
  rw [Url.cleanEnd] at h
  rcases List.prefix_or_prefix_of_prefix hcut (List.prefix_append authority rest) with hshort | ⟨more', hlong⟩
  · exact hshort.subset (List.mem_of_mem_filter (h ▸ List.mem_cons_self))
  · rw [← hlong, List.filter_append] at h
    have hkept : authority.filter Url.isKept ≠ [] := by
      simpa [List.filter_eq_nil_iff] using host
    obtain ⟨first, others, hfirst⟩ := List.exists_cons_of_ne_nil hkept
    rw [hfirst] at h
    cases h
    exact List.mem_of_mem_filter (hfirst ▸ List.mem_cons_self)

/-- User name and password in a URL change nothing but the remote that errors are about, and no address has any. The
    host of a web URL has to hold a character that is neither a tab nor a line break: those are dropped, and in front
    of an empty host more slashes are passed over, which an at sign prevents. -/
theorem ofRemote_credentials (scheme : Scheme) {credentials authority : Text}
    (plain : ∀ c ∈ credentials ++ authority, c ∉ Host.marks)
    (host : scheme.isWeb = true → ∃ c ∈ authority, Url.isKept c = true) (rest revision : Text) :
    let remote := scheme.text ++ "://".toList ++ (authority ++ rest)
    let signed := scheme.text ++ "://".toList ++ (credentials ++ '@' :: (authority ++ rest))
    ofRemote signed revision = (ofRemote remote revision).mapError (.about signed) ∧
      (∀ r, Remote.parse? signed = some r → '@' ∉ r.host) ∧
      ∀ l, ofRemote signed revision = .ok l →
        '@' ∉ Url.authorityIn l.root.text ∧ ∀ relative, '@' ∉ Url.authorityIn (l.fileUrl relative) := by
  intro remote signed
  have hread : Remote.parse? signed = Remote.parse? remote := by
    have htrim : trimEnd (credentials ++ '@' :: (authority ++ rest)) =
        credentials ++ '@' :: trimEnd (authority ++ rest) := dropWhileEnd_append_stop isBlankChar _ _ (by decide)
    have hcut : trimEnd (authority ++ rest) <+: authority ++ rest := prefix_dropWhileEnd isBlankChar _
    have hurl := Url.parse?_credentials scheme
      (fun c hc => Url.endsAuthority_of_not_mark (plain c (List.mem_append_left _ hc)))
      (fun hweb c more h => Url.isSlash_of_endsAuthority (Url.endsAuthority_of_not_mark
        (plain c (List.mem_append_right _ (mem_of_cleanEnd hcut (host hweb) h)))))
    rw [Remote.parse?_text_append, Remote.parse?_text_append, htrim, Remote.ofUrl?, Remote.ofUrl?, hurl]
  refine ⟨ofRemote_congr hread revision, fun r => Remote.not_mem_host, fun l hl => ?_⟩
  have hparted := parted_of_ofRemote hl
  exact ⟨hparted.not_mem_authorityIn, fun relative => (parted_fileAt hparted relative).not_mem_authorityIn⟩

/-- A token with an encoded at sign, a bracket, a blank and a tab, in front of a host with a port. -/
theorem ofRemote_credentials_token :
    let credentials := "me:p%40s[s w\trd".toList
    let authority := "GitLab.example.org:8443".toList
    let remote := Scheme.https.text ++ "://".toList ++ (authority ++ "/a/b@c.git".toList)
    let signed := Scheme.https.text ++ "://".toList ++ (credentials ++ '@' :: (authority ++ "/a/b@c.git".toList))
    (∀ c ∈ credentials ++ authority, c ∉ Host.marks) ∧
      (Scheme.https.isWeb = true → ∃ c ∈ authority, Url.isKept c = true) ∧
      ∃ l, ofRemote remote "main".toList = .ok l ∧ ofRemote signed "main".toList = .ok l ∧
        l.root.text = "https://gitlab.example.org:8443/a/b@c/-/blob/main".toList ∧
        '@' ∉ Url.authorityIn l.root.text := by
  intro credentials authority remote signed
  have hplain : ∀ c ∈ credentials ++ authority, c ∉ Host.marks := by decide
  have hhost : Scheme.https.isWeb = true → ∃ c ∈ authority, Url.isKept c = true :=
    fun _ => ⟨'G', by decide, by decide⟩
  obtain ⟨hsame, -, hnone⟩ := ofRemote_credentials .https hplain hhost "/a/b@c.git".toList "main".toList
  have hremote : ofRemote remote "main".toList = .ok
      { family := .gitlab
        root :=
          { scheme := .https, host := "gitlab.example.org".toList, port := some 8443
            segments := ["main", "blob", "-", "b@c", "a"].map String.toList, query := none, fragment := none } } := by
    decide +kernel
  have hsigned := hsame
  rw [hremote] at hsigned
  exact ⟨hplain, hhost, _, hremote, hsigned, by decide, (hnone _ hsigned).1⟩

/-- If tabs are all that stands between the slashes and the path, the path starts with the host, and a user name in
    front of it leaves no host. -/
theorem ofRemote_credentials_before_tab :
    let remote := Scheme.https.text ++ "://".toList ++ ("\t".toList ++ "/e.org/o/r".toList)
    let signed := Scheme.https.text ++ "://".toList ++ ("me".toList ++ '@' :: ("\t".toList ++ "/e.org/o/r".toList))
    ofRemote signed "main".toList = .error (.unsupported signed) ∧
      ∃ l, ofRemote remote "main".toList = .ok l ∧ l.root.text = "https://e.org/o/r/blob/main".toList := by
  intro remote signed
  have hremote : ofRemote remote "main".toList = .ok
      { family := .github
        root :=
          { scheme := .https, host := "e.org".toList, port := none
            segments := ["main", "blob", "r", "o"].map String.toList, query := none, fragment := none } } := by
    decide +kernel
  exact ⟨by decide +kernel, _, hremote, by decide⟩

end Location

end ReqTrace
