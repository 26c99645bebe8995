/-
Module: ReqTrace.Proofs.Document.Retold
Purpose: Edits of a document in place. A site edit changes the status of one requirement and a footnote
  edit the text of one footnote; every other line goes on to say what it said, and no line moves.
Main exports: LineView.retell, Retold, Retold.patchSite, Retold.patchFootnote, Retold.views_eq
-/
import ReqTrace.Proofs.Document.Edited

namespace ReqTrace

open Text

/-! ### Lines that say the same in other words -/

/-- What a line says when the sites have other statuses and some footnotes another text. -/
def LineView.retell (status : Identifier → SiteStatus) (text : Identifier → Option Text) :
    LineView → LineView
  | sites entries => sites (entries.map fun e => (e.1, status e.1))
  | footnote name raw => footnote name ((text name).getD raw)
  | malformed => malformed

namespace LineView

/-- The requirements whose sites stand on a line. -/
def names (v : LineView) : List Identifier :=
  v.entries.map Prod.fst

theorem retell_ne_malformed {v : LineView} (h : v ≠ .malformed) (status : Identifier → SiteStatus)
    (text : Identifier → Option Text) : v.retell status text ≠ .malformed := by
  cases v with
  | sites found => simp [retell]
  | footnote name raw => simp [retell]
  | malformed => exact absurd rfl h

end LineView

theorem siteKeys_retell (body : List (Nat × LineView)) (status : Identifier → SiteStatus)
    (text : Identifier → Option Text) :
    siteKeys (body.map fun entry => (entry.1, entry.2.retell status text)) =
      (siteKeys body).map fun key => (key.1, key.2.1, status key.1) := by
  rw [siteKeys, siteKeys, List.flatMap_map, List.map_flatMap]
  refine List.flatMap_congr ?_
  rintro ⟨line, v⟩ -
  cases v with
  | sites found => simp [LineView.retell, LineView.entries]
  | footnote name raw => rfl
  | malformed => rfl

theorem noteKeys_retell (body : List (Nat × LineView)) (status : Identifier → SiteStatus)
    (text : Identifier → Option Text) :
    noteKeys (body.map fun entry => (entry.1, entry.2.retell status text)) =
      (noteKeys body).map fun key => (key.1, key.2.1, (text key.1).getD key.2.2) := by
  rw [noteKeys, noteKeys, List.filterMap_map, List.map_filterMap]
  refine List.filterMap_congr ?_
  rintro ⟨line, v⟩ -
  cases v with
  | sites found => rfl
  | footnote name raw => rfl
  | malformed => rfl

/-! ### Requirements and footnotes have one place -/

/-- Lines of which no two sites and no two footnotes share a name. The body starts after `bodyStart`
    lines. -/
structure Unambiguous (header : Header) (lines : List Text) : Prop where
  sites : ((siteKeys (views header lines)).map Prod.fst).Nodup
  notes : ((noteKeys (views header lines)).map Prod.fst).Nodup

theorem mem_siteKeys_iff {body : List (Nat × LineView)} {name : Identifier} {line : Nat}
    {status : SiteStatus} :
    (name, line, status) ∈ siteKeys body ↔ ∃ v, (line, v) ∈ body ∧ (name, status) ∈ v.entries := by
  simp only [siteKeys, List.mem_flatMap, List.mem_map, Prod.mk.injEq, Prod.exists]
  constructor
  · rintro ⟨_, v, hv, _, _, he, rfl, rfl, rfl⟩
    exact ⟨v, hv, he⟩
  · rintro ⟨v, hv, he⟩
    exact ⟨line, v, hv, name, status, he, rfl, rfl, rfl⟩

theorem mem_noteKeys_iff {body : List (Nat × LineView)} {name : Identifier} {line : Nat} {raw : Text} :
    (name, line, raw) ∈ noteKeys body ↔ (line, .footnote name raw) ∈ body := by
  simp only [noteKeys, List.mem_filterMap, Prod.exists]
  constructor
  · rintro ⟨line', v, hv, hkey⟩
    cases v with
    | sites entries => simp [LineView.footnote?] at hkey
    | footnote name' raw' =>
        simp only [LineView.footnote?, Option.map_some, Option.some.injEq, Prod.mk.injEq] at hkey
        obtain ⟨rfl, rfl, rfl⟩ := hkey
        exact hv
    | malformed => simp [LineView.footnote?] at hkey
  · intro h
    exact ⟨line, _, h, rfl⟩

namespace Unambiguous

variable {header : Header} {lines : List Text} {line line' : Nat} {v v' : LineView} {name : Identifier}

theorem line_eq_of_mem_names (h : Unambiguous header lines) (hv : (line, v) ∈ views header lines)
    (hv' : (line', v') ∈ views header lines) (hname : name ∈ v.names) (hname' : name ∈ v'.names) :
    line = line' := by
  obtain ⟨⟨_, status⟩, he, rfl⟩ := List.mem_map.mp hname
  obtain ⟨⟨_, status'⟩, he', heq⟩ := List.mem_map.mp hname'
  cases heq
  have hkey := List.inj_on_of_nodup_map h.sites (mem_siteKeys_iff.mpr ⟨v, hv, he⟩)
    (mem_siteKeys_iff.mpr ⟨v', hv', he'⟩) rfl
  exact (Prod.mk.inj (Prod.mk.inj hkey).2).1

theorem line_eq_of_footnote? (h : Unambiguous header lines) (hv : (line, v) ∈ views header lines)
    (hv' : (line', v') ∈ views header lines) (hname : v.footnote?.map Prod.fst = some name)
    (hname' : v'.footnote?.map Prod.fst = some name) : line = line' := by
  cases v <;> cases v' <;> simp only [LineView.footnote?, Option.map_none, Option.map_some, reduceCtorEq,
    Option.some.injEq] at hname hname'
  subst hname hname'
  have hkey := List.inj_on_of_nodup_map h.notes (mem_noteKeys_iff.mpr hv) (mem_noteKeys_iff.mpr hv') rfl
  exact (Prod.mk.inj (Prod.mk.inj hkey).2).1

theorem nodup_names (h : Unambiguous header lines) (hv : (line, v) ∈ views header lines) :
    v.names.Nodup := by
  have hflat : (siteKeys (views header lines)).map Prod.fst =
      (views header lines).flatMap fun entry => entry.2.names := by
    simp [siteKeys, List.map_flatMap, LineView.names, Function.comp_def]
  have hnodup := h.sites
  rw [hflat] at hnodup
  exact (List.nodup_flatMap.mp hnodup).1 _ hv

end Unambiguous

/-! ### The invariant -/

/-- A line in the place of another one. Sites have other statuses, and a footnote has its old text or a new
    one, which need not be a footnote again. -/
def IsRetold (line : Nat) (status : Identifier → SiteStatus) (text : Identifier → Option Text)
    (t t' : Text) : Prop :=
  match (BodyLine.read line t).view with
  | .sites entries => '\n' ∉ t' ∧
      (BodyLine.read line t').view = .sites (entries.map fun e => (e.1, status e.1))
  | .footnote name _ => t' = (text name).getD t
  | .malformed => t' = t

/-- Only the statuses and texts of what stands on a line matter. -/
theorem IsRetold.congr {line : Nat} {status status' : Identifier → SiteStatus}
    {text text' : Identifier → Option Text} {t t' : Text} (h : IsRetold line status text t t')
    (hstatus : ∀ name ∈ (BodyLine.read line t).view.names, status' name = status name)
    (htext : ∀ name raw, (BodyLine.read line t).view = .footnote name raw → text' name = text name) :
    IsRetold line status' text' t t' := by
  unfold IsRetold at h ⊢
  cases hview : (BodyLine.read line t).view with
  | sites entries =>
      rw [hview] at h hstatus
      refine ⟨h.1, h.2.trans (congrArg LineView.sites (List.map_congr_left fun e he => ?_))⟩
      rw [hstatus e.1 (List.mem_map_of_mem he)]
  | footnote name raw =>
      rw [hview] at h
      have hsame : t' = (text name).getD t := h
      show t' = (text' name).getD t
      rw [htext name raw hview, hsame]
  | malformed =>
      rw [hview] at h
      exact h

/-- Lines of a document after some edits in place. -/
structure Retold (header : Header) (old new : List Text) (status : Identifier → SiteStatus)
    (text : Identifier → Option Text) : Prop where
  length : new.length = old.length
  take : new.take header.bodyStart = old.take header.bodyStart
  line : ∀ n t, header.bodyStart ≤ n → old[n]? = some t → ∃ t', new[n]? = some t' ∧
    IsRetold (n + 1) status text t t'

namespace Retold

variable {header : Header} {old new : List Text} {status : Identifier → SiteStatus}
  {text : Identifier → Option Text}

/-- A line of the body may be replaced by one that says what is asked for, if that leaves all other lines
    as they are. -/
theorem set (h : Retold header old new status text) {status' : Identifier → SiteStatus}
    {text' : Identifier → Option Text} {n : Nat} {t t' : Text} (hn : header.bodyStart ≤ n)
    (ht : old[n]? = some t) (hline : IsRetold (n + 1) status' text' t t')
    (hstatus : ∀ entry ∈ views header old, entry.1 ≠ n + 1 →
      ∀ name ∈ entry.2.names, status' name = status name)
    (htext : ∀ line name raw, (line, .footnote name raw) ∈ views header old → line ≠ n + 1 →
      text' name = text name) :
    Retold header old (new.set n t') status' text' := by
  obtain ⟨hlt, -⟩ := List.getElem?_eq_some_iff.mp ht
  rw [← h.length] at hlt
  refine ⟨by simp [h.length], by rw [List.take_set_of_le hn, h.take], fun m u hm hu => ?_⟩
  by_cases hmn : m = n
  · subst hmn
    rw [ht] at hu
    cases hu
    exact ⟨t', List.getElem?_set_self hlt, hline⟩
  · obtain ⟨u', hnew, hretold⟩ := h.line m u hm hu
    have hmem : ∀ v, (BodyLine.read (m + 1) u).view = v → (m + 1, v) ∈ views header old :=
      fun v hv => mem_views_iff.mpr ⟨m, u, hm, hu, rfl, hv⟩
    have hne : m + 1 ≠ n + 1 := by simpa using hmn
    exact ⟨u', by rw [List.getElem?_set_ne (Ne.symm hmn)]; exact hnew,
      hretold.congr (hstatus _ (hmem _ rfl) hne) fun name raw hview =>
        htext (m + 1) name raw (hmem _ hview) hne⟩

/-- New texts of footnotes that are footnotes of the same name. -/
def Readable (text : Identifier → Option Text) : Prop :=
  ∀ name payload, text name = some payload → '\n' ∉ payload ∧
    ∀ line, (BodyLine.read line payload).view = .footnote name payload

theorem view_of_isRetold {line : Nat} {t t' : Text} (h : IsRetold line status text t t')
    (readable : Readable text) :
    (BodyLine.read line t').view = (BodyLine.read line t).view.retell status text := by
  unfold IsRetold at h
  cases hview : (BodyLine.read line t).view with
  | sites entries =>
      rw [hview] at h
      exact h.2
  | footnote name raw =>
      rw [hview] at h
      have hraw := (view_read_eq_footnote_iff.mp hview)
      obtain ⟨f, hfound, rfl, rfl⟩ := hraw
      obtain rfl : t' = (text f.name).getD t := h
      cases htext : text f.name with
      | none => simpa [LineView.retell, htext] using hview
      | some payload => simpa [LineView.retell, htext] using (readable f.name payload htext).2 line
  | malformed =>
      rw [hview] at h
      obtain rfl : t' = t := h
      exact hview

theorem plain_of_isRetold {line : Nat} {t t' : Text} (h : IsRetold line status text t t')
    (readable : Readable text) (plain : '\n' ∉ t) : '\n' ∉ t' := by
  unfold IsRetold at h
  cases hview : (BodyLine.read line t).view with
  | sites entries =>
      rw [hview] at h
      exact h.1
  | footnote name raw =>
      rw [hview] at h
      rw [h]
      cases htext : text name with
      | none => exact plain
      | some payload => exact (readable name payload htext).1
  | malformed =>
      rw [hview] at h
      rw [h]
      exact plain

/-- What the lines say now. -/
theorem views_eq (h : Retold header old new status text) (readable : Readable text) :
    views header new = (views header old).map fun entry => (entry.1, entry.2.retell status text) := by
  simp only [views, ParsedDocument.bodyOf, List.map_map]
  refine List.ext_getElem? fun i => ?_
  simp only [List.getElem?_map, List.getElem?_zipIdx, List.getElem?_drop, Option.map_map]
  cases hold : old[header.bodyStart + i]? with
  | none =>
      have hnew : new[header.bodyStart + i]? = none := by
        rw [List.getElem?_eq_none_iff] at hold ⊢
        rw [h.length]
        exact hold
      rw [hnew]
      rfl
  | some t =>
      obtain ⟨t', hnew, hretold⟩ := h.line _ t (Nat.le_add_right _ _) hold
      have hline : header.bodyStart + 1 + i = header.bodyStart + i + 1 := by omega
      rw [hnew]
      simp only [Option.map_some, Function.comp_apply, hline, view_of_isRetold hretold readable]

/-- No line is broken. -/
theorem plain (h : Retold header old new status text) (readable : Readable text)
    (plain : ∀ t ∈ old, '\n' ∉ t) : ∀ t ∈ new, '\n' ∉ t := by
  intro t' ht'
  obtain ⟨n, hn⟩ := List.mem_iff_getElem?.mp ht'
  obtain ⟨t, ht⟩ : ∃ t, old[n]? = some t := by
    obtain ⟨hlt, -⟩ := List.getElem?_eq_some_iff.mp hn
    exact ⟨_, List.getElem?_eq_getElem (h.length ▸ hlt)⟩
  have hplain := plain t (List.mem_of_getElem? ht)
  by_cases hbody : header.bodyStart ≤ n
  · obtain ⟨u, hu, hretold⟩ := h.line n t hbody ht
    rw [hn] at hu
    cases hu
    exact plain_of_isRetold hretold readable hplain
  · have htake := congrArg (·[n]?) h.take
    simp only [List.getElem?_take, if_pos (Nat.lt_of_not_le hbody), hn, ht, Option.some.injEq] at htake
    rw [htake]
    exact hplain

/-! ### Edits -/

theorem siteOn?_eq_some {line : Nat} {t : Text} {found : List Site} {name : Identifier}
    (hsites : Site.ofLine line t = found.map .ok) (nodup : (found.map Site.name).Nodup) {s : Site}
    (hs : s ∈ found) (hname : s.name = name) : siteOn? line t name = some s := by
  rw [siteOn?, mapM_toOption_eq_some_iff.mpr hsites]
  exact (find?_key_eq_some_iff Site.name nodup).mpr ⟨hs, hname⟩

/-- Giving a site another status changes what its line says about that site only. -/
theorem exists_patchSite (path : Path) {f : LineFile} {n : Nat} {t : Text}
    {entries : List (Identifier × SiteStatus)} {requirement : RequirementId} {target : SiteStatus}
    (ht : f.lines[n]? = some t) (plain : '\n' ∉ t)
    (hview : (BodyLine.read (n + 1) t).view = .sites entries) (nodup : (entries.map Prod.fst).Nodup)
    (hname : requirement.name ∈ entries.map Prod.fst) (annotated : target ≠ .bare) :
    ∃ t', f.patchSite path (n + 1) requirement (Site.render requirement.name target) =
        .ok { f with lines := f.lines.set n t' } ∧
      '\n' ∉ t' ∧
      (BodyLine.read (n + 1) t').view =
        .sites (entries.map fun e => (e.1, if e.1 = requirement.name then target else e.2)) := by
  obtain ⟨hnote, found, hsites, rfl⟩ := view_read_eq_sites_iff.mp hview
  have hnames : (found.map Site.entry).map Prod.fst = found.map Site.name := by
    rw [List.map_map]
    rfl
  rw [hnames] at nodup hname
  obtain ⟨s, hs, hsname⟩ := List.mem_map.mp hname
  have hon := siteOn?_eq_some hsites nodup hs hsname
  obtain ⟨left, right, rfl, hplaced, hcut⟩ := exists_cut_of_siteOn? hon
  obtain ⟨earlier, later, hread, -, hearlier⟩ := siteOn?_eq_some_iff.mp hon
  obtain rfl := List.map_injective_iff.mpr (fun _ _ => Except.ok.inj) (hsites.symm.trans hread)
  rw [hplaced] at hread
  refine ⟨left ++ Site.render requirement.name target ++ right,
    LineFile.patchSite_eq_ok_iff.mpr ⟨_, s, _, ht, hon, hcut _, rfl⟩, ?_, ?_⟩
  · have hrender := Site.not_mem_render requirement.name target
    simp only [List.mem_append, not_or] at plain ⊢
    exact ⟨⟨plain.1.1, hrender⟩, plain.2⟩
  · refine view_read_eq_sites_iff.mpr ⟨?_, _, (rewriteSite?_render hread hearlier annotated).2, ?_⟩
    · rw [Site.isFootnoteLine_render left right requirement.name target s.status]
      exact hnote
    · have hother : ∀ x ∈ earlier ++ later, x.name ≠ requirement.name := by
        intro x hx heq
        rw [List.map_append, List.map_cons, List.nodup_middle, List.nodup_cons, ← List.map_append] at nodup
        exact nodup.1 (List.mem_map.mpr ⟨x, hx, heq.trans hsname.symm⟩)
      have hkeep : ∀ x ∈ earlier ++ later, Site.entry x =
          (x.name, if x.name = requirement.name then target else x.status) := by
        intro x hx
        rw [if_neg (hother x hx)]
        rfl
      simp only [List.map_append, List.map_cons, List.map_map]
      refine congrArg₂ _ ?_ (congrArg₂ _ ?_ ?_)
      · exact List.map_congr_left fun x hx => hkeep x (List.mem_append_left _ hx)
      · simp [Site.entry, Site.placed, hsname]
      · exact List.map_congr_left fun x hx => hkeep x (List.mem_append_right _ hx)

/-- A footnote is replaced as a whole. -/
theorem patchFootnote_eq_ok (path : Path) {f : LineFile} {n : Nat} {t raw : Text}
    {requirement : RequirementId} (ht : f.lines[n]? = some t) (payload : Text)
    (hview : (BodyLine.read (n + 1) t).view = .footnote requirement.name raw) :
    f.patchFootnote path (n + 1) requirement payload =
      .ok { f with lines := f.lines.set n payload } := by
  obtain ⟨found, hfound, hname, -⟩ := view_read_eq_footnote_iff.mp hview
  have hon : isFootnoteOf (n + 1) t requirement.name = true := by
    rw [isFootnoteOf, hfound]
    exact beq_iff_eq.mpr hname
  simp only [LineFile.patchFootnote, LineFile.line?, ht, hon, if_true]
  rfl

/-- A site edit succeeds, and the lines say the same but for that status. -/
theorem patchSite (path : Path) {f : LineFile} (h : Retold header old f.lines status text)
    (unambiguous : Unambiguous header old) {line : Nat} {v : LineView} {requirement : RequirementId}
    {target : SiteStatus} (hv : (line, v) ∈ views header old) (hname : requirement.name ∈ v.names)
    (annotated : target ≠ .bare) :
    ∃ lines, f.patchSite path line requirement (Site.render requirement.name target) =
        .ok { f with lines } ∧
      Retold header old lines (Function.update status requirement.name target) text := by
  obtain ⟨n, t, hn, ht, rfl, rfl⟩ := mem_views_iff.mp hv
  obtain ⟨t', ht', hretold⟩ := h.line n t hn ht
  have hnodup := unambiguous.nodup_names hv
  obtain ⟨entries, hentries⟩ : ∃ entries, (BodyLine.read (n + 1) t).view = .sites entries := by
    cases hold : (BodyLine.read (n + 1) t).view with
    | sites entries => exact ⟨entries, rfl⟩
    | footnote name raw => simp [hold, LineView.names, LineView.entries] at hname
    | malformed => simp [hold, LineView.names, LineView.entries] at hname
  have hmap : ((entries.map fun e => (e.1, status e.1)).map Prod.fst) = entries.map Prod.fst := by
    rw [List.map_map]
    rfl
  rw [IsRetold, hentries] at hretold
  rw [hentries] at hname hnodup
  obtain ⟨t'', hpatched, hplain, hview⟩ := exists_patchSite path ht' hretold.1 hretold.2
    (by rw [hmap]; exact hnodup) (by rw [hmap]; exact hname) annotated
  refine ⟨_, hpatched, h.set hn ht ?_ ?_ fun _ _ _ _ _ => rfl⟩
  · rw [IsRetold, hentries]
    refine ⟨hplain, ?_⟩
    rw [hview, List.map_map]
    refine congrArg _ (List.map_congr_left fun e _ => ?_)
    by_cases he : e.1 = requirement.name
    · simp [he]
    · simp [he]
  · intro entry hentry hline name hname'
    refine Function.update_of_ne (fun heq => hline ?_) _ _
    rw [heq] at hname'
    refine unambiguous.line_eq_of_mem_names hentry hv hname' ?_
    rw [hentries]
    exact hname

/-- The edit of a footnote that has its old text succeeds, and the lines say the same but for that text. -/
theorem patchFootnote (path : Path) {f : LineFile} (h : Retold header old f.lines status text)
    (unambiguous : Unambiguous header old) {line : Nat} {raw : Text} {requirement : RequirementId}
    (hv : (line, .footnote requirement.name raw) ∈ views header old)
    (untouched : text requirement.name = none) (payload : Text) :
    ∃ lines, f.patchFootnote path line requirement payload = .ok { f with lines } ∧
      Retold header old lines status (Function.update text requirement.name (some payload)) := by
  obtain ⟨n, t, hn, ht, rfl, hview⟩ := mem_views_iff.mp hv
  obtain ⟨t', ht', hretold⟩ := h.line n t hn ht
  rw [IsRetold, hview] at hretold
  simp only [untouched, Option.getD_none] at hretold
  rw [hretold] at ht'
  refine ⟨_, patchFootnote_eq_ok path ht' payload hview, h.set hn ht ?_ (fun _ _ _ _ _ => rfl) ?_⟩
  · rw [IsRetold, hview]
    simp
  · intro line name raw' hentry hline
    refine Function.update_of_ne (fun heq => hline ?_) _ _
    rw [heq] at hentry
    exact unambiguous.line_eq_of_footnote? hentry hv rfl rfl

end Retold

/-- A rendered footnote says what it is rendered from. -/
theorem view_read_render (line : Nat) (name : Identifier) {hint : Text} (back : '`' ∉ hint)
    (feed : '\n' ∉ hint) {cs : List Coverer} (linkable : ∀ c ∈ cs, c.Linkable) :
    (BodyLine.read line (Footnote.render name hint cs)).view =
      .footnote name (Footnote.render name hint cs) :=
  view_read_eq_footnote_iff.mpr ⟨_, Footnote.ofLine?_render line name back feed linkable, rfl, rfl⟩

end ReqTrace
