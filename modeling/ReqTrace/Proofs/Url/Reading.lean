/-
Module: ReqTrace.Proofs.Url.Reading
Purpose: How a URL is read that starts with a scheme and two slashes: what follows is cleaned at its end, further
  slashes are passed over if the scheme is one of the web, and user names are dropped.
Main exports: Url.ofParts?, Url.parse?_text_append, Url.parse?_credentials
-/
import ReqTrace.Proofs.Url.Parts

namespace ReqTrace

open Text

namespace Url

/-! ### Schemes -/

theorem cutScheme?_text (scheme : Scheme) (rest : Text) :
    cutScheme? (scheme.text ++ ':' :: rest) = some (scheme, rest) := by
  have hcut : cut? ':' (scheme.text ++ ':' :: rest) = some (scheme.text, rest) :=
    cut?_eq_some_iff.mpr ⟨rfl, by cases scheme <;> decide⟩
  have hname : Scheme.ofText? scheme.text = some scheme := by cases scheme <;> decide
  rw [cutScheme?, hcut]
  simp [hname]

/-- What follows the two slashes after a scheme, as it is read. -/
def cleanEnd (t : Text) : Text :=
  (dropWhileEnd (· ≤ ' ') t).filter isKept

theorem clean_text_append (scheme : Scheme) (t : Text) :
    clean (scheme.text ++ "://".toList ++ t) = scheme.text ++ "://".toList ++ cleanEnd t := by
  have hsplit : ∀ t : Text, scheme.text ++ "://".toList ++ t = (scheme.text ++ ":/".toList) ++ '/' :: t := by
    simp
  have hlead : ∀ t : Text, (scheme.text ++ "://".toList ++ t).dropWhile (· ≤ ' ') =
      scheme.text ++ "://".toList ++ t := by
    intro t
    cases scheme <;> exact List.dropWhile_cons_of_neg (by decide)
  have hkept : (scheme.text ++ ":/".toList ++ ['/']).filter isKept = scheme.text ++ ":/".toList ++ ['/'] := by
    cases scheme <;> decide
  change (dropWhileEnd (· ≤ ' ') ((scheme.text ++ "://".toList ++ t).dropWhile (· ≤ ' '))).filter isKept = _
  rw [hlead, hsplit, dropWhileEnd_append_stop _ _ _ (by decide), hsplit, cleanEnd, List.append_cons,
    List.filter_append, hkept, ← List.append_cons]

/-! ### Authorities -/

theorem isSlash_of_endsAuthority {scheme : Scheme} {c : Char} (h : endsAuthority scheme c = false) :
    isSlash scheme c = false := by
  simp only [endsAuthority, Bool.or_eq_false_iff] at h
  exact h.1.1

theorem endsAuthority_of_not_mark {scheme : Scheme} {c : Char} (h : c ∉ Host.marks) :
    endsAuthority scheme c = false := by
  simp [Host.marks] at h
  simp [endsAuthority, isSlash, h]

/-- Reads host and port from an authority without user names, and path, query and fragment from what follows it. -/
def ofParts? (scheme : Scheme) (authority rest : Text) : Option Url := do
  let (host, after) := cutHost false authority
  let host ← readHost? scheme host
  let (port, lead) ← readPort? scheme after
  let rest := lead ++ rest
  let path := rest.takeWhile fun c => c != '?' && c != '#'
  let rest := rest.drop path.length
  let query := rest.takeWhile (· != '#')
  let fragment := rest.drop query.length
  return { scheme, host, port
           segments := resolve ((pathParts scheme path).map (Percent.encode Percent.inPath))
           query := if query = [] then none else some (Percent.encode Percent.inQuery (query.drop 1))
           fragment :=
             if fragment = [] then none
             else some (Percent.encode Percent.inFragment (fragment.drop 1)) }

/-- What follows a scheme without the slashes in front of the host. -/
def pastSlashes (scheme : Scheme) (t : Text) : Text :=
  if scheme.isWeb then t.dropWhile (isSlash scheme) else t

theorem skipSlashes?_append (scheme : Scheme) (t : Text) :
    skipSlashes? scheme ("//".toList ++ t) = some (pastSlashes scheme t) := by
  unfold skipSlashes? pastSlashes
  split
  · have hslashes : ∀ c ∈ "//".toList, isSlash scheme c = true := by
      intro c hc
      obtain rfl : c = '/' := by simpa using hc
      rfl
    rw [List.dropWhile_append_of_pos hslashes]
  · exact dropLead?_append _ _

/-- The reading of a URL: the authority goes up to the first character that ends it, and its user names are
    dropped. -/
theorem parse?_text_append (scheme : Scheme) (t : Text) :
    parse? (scheme.text ++ "://".toList ++ t) =
      ofParts? scheme
        (dropCredentials ((pastSlashes scheme (cleanEnd t)).takeWhile (! endsAuthority scheme ·)))
        ((pastSlashes scheme (cleanEnd t)).dropWhile (! endsAuthority scheme ·)) := by
  have hdrop : ∀ (p : Char → Bool) (rest : Text), rest.drop (rest.takeWhile p).length = rest.dropWhile p := by
    intro p rest
    have hparts := congrArg (List.drop (rest.takeWhile p).length) (List.takeWhile_append_dropWhile (p := p) (l := rest))
    rw [List.drop_left] at hparts
    exact hparts.symm
  have hsplit : scheme.text ++ "://".toList ++ cleanEnd t =
      scheme.text ++ ':' :: ("//".toList ++ cleanEnd t) := by simp
  rw [parse?, clean_text_append, hsplit, cutScheme?_text, ← hdrop]
  simp only [Option.bind_eq_bind, Option.bind_some, skipSlashes?_append]
  rfl

theorem dropCredentials_append (credentials authority : Text) :
    dropCredentials (credentials ++ '@' :: authority) = dropCredentials authority := by
  have hsplit : (credentials ++ '@' :: authority).reverse = authority.reverse ++ '@' :: credentials.reverse := by
    simp
  rw [dropCredentials, hsplit, takeWhile_append_stop _ _ _ (by decide), dropCredentials]

theorem dropCredentials_eq_self {authority : Text} (h : '@' ∉ authority) : dropCredentials authority = authority := by
  have hgoes : ∀ c ∈ authority.reverse, (c != '@') = true := fun c hc => by
    simpa using fun heq : c = '@' => h (heq ▸ List.mem_reverse.mp hc)
  rw [dropCredentials, List.takeWhile_eq_self_iff.mpr hgoes, List.reverse_reverse]

theorem pastSlashes_eq_self {scheme : Scheme} {t : Text}
    (h : scheme.isWeb = true → ∀ c rest, t = c :: rest → isSlash scheme c = false) : pastSlashes scheme t = t := by
  unfold pastSlashes
  split
  · rename_i hweb
    cases t with
    | nil => rfl
    | cons c rest => exact List.dropWhile_cons_of_neg (by simp [h hweb c rest rfl])
  · rfl

/-- User names change nothing of what is read, as long as they do not part the host of a web URL from the slashes before
    it: without them the host has to start with no slash. -/
theorem parse?_credentials (scheme : Scheme) {credentials t : Text}
    (plain : ∀ c ∈ credentials, endsAuthority scheme c = false)
    (host : scheme.isWeb = true → ∀ c rest, cleanEnd t = c :: rest → isSlash scheme c = false) :
    parse? (scheme.text ++ "://".toList ++ (credentials ++ '@' :: t)) =
      parse? (scheme.text ++ "://".toList ++ t) := by
  have hat : endsAuthority scheme '@' = false := by cases scheme <;> decide
  have hclean : cleanEnd (credentials ++ '@' :: t) = credentials.filter isKept ++ '@' :: cleanEnd t := by
    rw [cleanEnd, dropWhileEnd_append_stop _ _ _ (by decide), List.filter_append,
      List.filter_cons_of_pos (by decide), cleanEnd]
  have hplain : ∀ c ∈ credentials.filter isKept ++ ['@'], endsAuthority scheme c = false := by
    intro c hc
    rcases List.mem_append.mp hc with hc | hc
    · exact plain c (List.mem_of_mem_filter hc)
    · rw [List.mem_singleton.mp hc, hat]
  have hfirst : ∀ c rest, credentials.filter isKept ++ '@' :: cleanEnd t = c :: rest → isSlash scheme c = false := by
    intro c rest heq
    refine isSlash_of_endsAuthority (hplain c ?_)
    rw [List.append_cons] at heq
    exact mem_of_append_eq_cons (by simp) heq
  have hgoes : ∀ c ∈ credentials.filter isKept ++ ['@'], (! endsAuthority scheme c) = true := fun c hc => by
    rw [hplain c hc]
    rfl
  rw [parse?_text_append, parse?_text_append, hclean, pastSlashes_eq_self fun _ => hfirst,
    pastSlashes_eq_self host, List.append_cons, List.takeWhile_append_of_pos hgoes,
    List.dropWhile_append_of_pos hgoes, ← List.append_cons, dropCredentials_append]

end Url

end ReqTrace
