/-
Module: ReqTrace.Proofs.Document.Apart
Purpose: Edits of one document that do not get into each other's way: edits of different lines, edits of markers
  with different names on one line, and new footnotes. They can be carried out in either order.
Main exports: rewriteSite?_swap, Action.rewrite?, LineFile.patch_eq_ok_iff, Action.Apart,
  Action.Apart.swaps, patchDocument_reordered
-/
import ReqTrace.Proofs.Document.Edited
import ReqTrace.Proofs.Swaps

namespace ReqTrace

open Text

/-! ### Two markers on one line -/

/-- Of two leading parts of a text the one with fewer bytes leads the other one. -/
theorem Text.exists_eq_append_of_le {s t s' t' : Text} (h : s ++ t = s' ++ t')
    (shorter : byteLength s ≤ byteLength s') : ∃ middle, s' = s ++ middle := by
  rcases List.append_eq_append_iff.mp h with ⟨middle, hmiddle, -⟩ | ⟨middle, hmiddle, -⟩
  · exact ⟨middle, hmiddle⟩
  · cases middle with
    | nil => exact ⟨[], by rw [hmiddle, List.append_nil, List.append_nil]⟩
    | cons c rest =>
        have hpos := c.utf8Size_pos
        rw [hmiddle, byteLength_append, byteLength_cons] at shorter
        omega

/-- A line around two of its sites. -/
theorem exists_cut_of_two {line : Nat} {t : Text} {x y : Site} {earlier between later : List Site}
    (read : Site.ofLine line t = (earlier ++ x :: (between ++ y :: later)).map .ok) :
    ∃ left middle right,
      t = left ++ Site.render x.name x.status ++ middle ++ Site.render y.name y.status ++ right ∧
      x = Site.placed line (byteLength left) x.name x.status ∧
      y = Site.placed line (byteLength (left ++ Site.render x.name x.status ++ middle)) y.name y.status := by
  have hread : Site.ofLine line t = earlier.map .ok ++ .ok x :: (between ++ y :: later).map .ok := by
    rw [read, List.map_append, List.map_cons]
  have hread' : Site.ofLine line t = (earlier ++ x :: between).map .ok ++ .ok y :: later.map .ok := by
    rw [read]
    simp
  have horder := Site.stop_le_start hread (List.mem_map_of_mem (by simp : y ∈ between ++ y :: later))
  obtain ⟨left, right, htext, hx, -⟩ := Site.exists_eq_append_render hread
  obtain ⟨left', right', htext', hy, -⟩ := Site.exists_eq_append_render hread'
  have hlength : byteLength (left ++ Site.render x.name x.status) ≤ byteLength left' := by
    rw [hx, hy] at horder
    rw [byteLength_append]
    exact horder
  rw [htext, List.append_assoc left'] at htext'
  obtain ⟨middle, rfl⟩ := Text.exists_eq_append_of_le htext' hlength
  rw [← List.append_assoc, ← htext] at htext'
  exact ⟨left, middle, right', htext', hx, hy⟩

section Two

variable {line : Nat} {left middle right : Text} {name name' : Identifier} {old old' status status' : SiteStatus}
  {earlier between later : List Site}

/-- The first one of two markers is replaced, and then the second one, which has moved. -/
theorem rewriteSite?_forth
    (read : Site.ofLine line (left ++ Site.render name old ++ middle ++ Site.render name' old' ++ right) =
      (earlier ++ Site.placed line (byteLength left) name old :: (between ++
        Site.placed line (byteLength (left ++ Site.render name old ++ middle)) name' old' :: later)).map .ok)
    (first : ∀ s ∈ earlier, s.name ≠ name)
    (first' : ∀ s ∈ earlier ++ Site.placed line (byteLength left) name old :: between, s.name ≠ name')
    (annotated : status ≠ .bare) (annotated' : status' ≠ .bare) :
    ∃ next,
      rewriteSite? line name (Site.render name status)
          (left ++ Site.render name old ++ middle ++ Site.render name' old' ++ right) = some next ∧
        rewriteSite? line name' (Site.render name' status') next =
          some (left ++ Site.render name status ++ middle ++ Site.render name' status' ++ right) := by
  have hread : Site.ofLine line (left ++ Site.render name old ++ (middle ++ Site.render name' old' ++ right)) =
      (earlier ++ Site.placed line (byteLength left) name old :: (between ++
        Site.placed line (byteLength (left ++ Site.render name old ++ middle)) name' old' :: later)).map .ok := by
    simpa using read
  have hmoved : Site.shift (byteLength (Site.render name old)) (byteLength (Site.render name status))
      (Site.placed line (byteLength (left ++ Site.render name old ++ middle)) name' old') =
        Site.placed line (byteLength (left ++ Site.render name status ++ middle)) name' old' := by
    simp only [Site.shift, Site.placed, byteLength_append, Site.mk.injEq, Span.mk.injEq, true_and, and_true]
    omega
  obtain ⟨hnext, hnextRead⟩ := rewriteSite?_render hread first annotated
  have hread' : Site.ofLine line (left ++ Site.render name status ++ middle ++ Site.render name' old' ++ right) =
      ((earlier ++ Site.placed line (byteLength left) name status :: between.map
          (Site.shift (byteLength (Site.render name old)) (byteLength (Site.render name status)))) ++
        Site.placed line (byteLength (left ++ Site.render name status ++ middle)) name' old' :: later.map
          (Site.shift (byteLength (Site.render name old)) (byteLength (Site.render name status)))).map .ok := by
    rw [← hmoved]
    simpa using hnextRead
  have hfirst : ∀ s ∈ earlier ++ Site.placed line (byteLength left) name status :: between.map
      (Site.shift (byteLength (Site.render name old)) (byteLength (Site.render name status))),
        s.name ≠ name' := by
    simpa [Site.placed, Site.shift, forall_and, or_imp] using first'
  have hlast := (rewriteSite?_render hread' hfirst annotated').1
  simp only [List.append_assoc] at hnext hlast ⊢
  exact ⟨_, hnext, hlast⟩

/-- The second one of two markers is replaced, and then the first one, which has not moved. -/
theorem rewriteSite?_back
    (read : Site.ofLine line (left ++ Site.render name old ++ middle ++ Site.render name' old' ++ right) =
      (earlier ++ Site.placed line (byteLength left) name old :: (between ++
        Site.placed line (byteLength (left ++ Site.render name old ++ middle)) name' old' :: later)).map .ok)
    (first : ∀ s ∈ earlier, s.name ≠ name)
    (first' : ∀ s ∈ earlier ++ Site.placed line (byteLength left) name old :: between, s.name ≠ name')
    (annotated : status ≠ .bare) (annotated' : status' ≠ .bare) :
    ∃ next,
      rewriteSite? line name' (Site.render name' status')
          (left ++ Site.render name old ++ middle ++ Site.render name' old' ++ right) = some next ∧
        rewriteSite? line name (Site.render name status) next =
          some (left ++ Site.render name status ++ middle ++ Site.render name' status' ++ right) := by
  have hread : Site.ofLine line (left ++ Site.render name old ++ middle ++ Site.render name' old' ++ right) =
      ((earlier ++ Site.placed line (byteLength left) name old :: between) ++
        Site.placed line (byteLength (left ++ Site.render name old ++ middle)) name' old' :: later).map .ok := by
    simpa using read
  obtain ⟨hnext, hnextRead⟩ := rewriteSite?_render hread first' annotated'
  have hread' : Site.ofLine line (left ++ Site.render name old ++ (middle ++ Site.render name' status' ++ right)) =
      (earlier ++ Site.placed line (byteLength left) name old :: (between ++ Site.placed line
        (byteLength (left ++ Site.render name old ++ middle)) name' status' :: later.map
          (Site.shift (byteLength (Site.render name' old')) (byteLength (Site.render name' status'))))).map .ok := by
    simpa using hnextRead
  have hlast := (rewriteSite?_render hread' first annotated).1
  simp only [List.append_assoc] at hnext hlast ⊢
  exact ⟨_, hnext, hlast⟩

end Two

/-- Two markers with different names on one line are replaced in either order, and the line is the same in the end. -/
theorem rewriteSite?_of_two {line : Nat} {t : Text} {x y : Site} {earlier between later : List Site}
    {status status' : SiteStatus} (read : Site.ofLine line t = (earlier ++ x :: (between ++ y :: later)).map .ok)
    (first : ∀ s ∈ earlier, s.name ≠ x.name) (first' : ∀ s ∈ earlier ++ x :: between, s.name ≠ y.name)
    (annotated : status ≠ .bare) (annotated' : status' ≠ .bare) :
    ∃ next other last, rewriteSite? line x.name (Site.render x.name status) t = some next ∧
      rewriteSite? line y.name (Site.render y.name status') next = some last ∧
      rewriteSite? line y.name (Site.render y.name status') t = some other ∧
      rewriteSite? line x.name (Site.render x.name status) other = some last := by
  obtain ⟨left, middle, right, rfl, hx, hy⟩ := exists_cut_of_two read
  generalize x.name = name, x.status = old, y.name = name', y.status = old' at *
  subst hx hy
  obtain ⟨next, hnext, hlast⟩ := rewriteSite?_forth read first first' annotated annotated'
  obtain ⟨other, hother, hlast'⟩ := rewriteSite?_back read first first' annotated annotated'
  exact ⟨next, other, _, hnext, hlast, hother, hlast'⟩

/-- Replacing markers changes no name on the line. -/
theorem names_of_rewriteSite? {line : Nat} {name : Identifier} {status : SiteStatus} {t t' : Text}
    (annotated : status ≠ .bare) (h : rewriteSite? line name (Site.render name status) t = some t') :
    ∃ sites sites' : List Site, Site.ofLine line t = sites.map .ok ∧ Site.ofLine line t' = sites'.map .ok ∧
      sites'.map Site.name = sites.map Site.name := by
  obtain ⟨s, hsite, hreplaced⟩ := Option.bind_eq_some_iff.mp h
  obtain ⟨left, right, rfl, hplaced, hcut⟩ := exists_cut_of_siteOn? hsite
  obtain ⟨earlier, later, hread, -, hearlier⟩ := siteOn?_eq_some_iff.mp hsite
  obtain rfl := Option.some.inj ((hcut _).symm.trans hreplaced)
  rw [hplaced] at hread
  refine ⟨_, _, hread, (rewriteSite?_render hread hearlier annotated).2, ?_⟩
  simp [Site.placed, Site.shift, Function.comp_def]

/-- Markers with different names on one line are replaced in either order. -/
theorem rewriteSite?_swap {line : Nat} {name name' : Identifier} {status status' : SiteStatus}
    (names : name ≠ name') (annotated : status ≠ .bare) (annotated' : status' ≠ .bare) {t next last : Text}
    (h : rewriteSite? line name (Site.render name status) t = some next)
    (h' : rewriteSite? line name' (Site.render name' status') next = some last) :
    ∃ other, rewriteSite? line name' (Site.render name' status') t = some other ∧
      rewriteSite? line name (Site.render name status) other = some last := by
  obtain ⟨x, hx, -⟩ := Option.bind_eq_some_iff.mp h
  obtain ⟨y, hy⟩ : ∃ y, siteOn? line t name' = some y := by
    obtain ⟨sites, sites', hread, hread', hnames⟩ := names_of_rewriteSite? annotated h
    obtain ⟨y, hy, -⟩ := Option.bind_eq_some_iff.mp h'
    obtain ⟨found, hfound, hname⟩ := exists_siteOn?_iff.mp ⟨y, hy⟩
    obtain rfl := List.map_injective_iff.mpr (fun _ _ => Except.ok.inj) (hread'.symm.trans hfound)
    exact exists_siteOn?_iff.mpr ⟨sites, hread, hnames ▸ hname⟩
  obtain ⟨earlier, later, hread, rfl, hearlier⟩ := siteOn?_eq_some_iff.mp hx
  obtain ⟨earlier', later', hread', rfl, hearlier'⟩ := siteOn?_eq_some_iff.mp hy
  have hsame : earlier ++ x :: later = earlier' ++ y :: later' :=
    List.map_injective_iff.mpr (fun _ _ => Except.ok.inj) (hread.symm.trans hread')
  rcases List.append_eq_append_iff.mp hsame with ⟨between, rfl, hrest⟩ | ⟨between, rfl, hrest⟩
  · cases between with
    | nil => exact absurd (congrArg Site.name (List.cons.inj hrest).1) names
    | cons s between =>
        obtain ⟨rfl, rfl⟩ := List.cons.inj hrest
        obtain ⟨_, other, _, hnext, hlast, hother, hlast'⟩ :=
          rewriteSite?_of_two hread hearlier hearlier' annotated annotated'
        obtain rfl := Option.some.inj (h.symm.trans hnext)
        obtain rfl := Option.some.inj (h'.symm.trans hlast)
        exact ⟨other, hother, hlast'⟩
  · cases between with
    | nil => exact absurd (congrArg Site.name (List.cons.inj hrest).1).symm names
    | cons s between =>
        obtain ⟨rfl, rfl⟩ := List.cons.inj hrest
        obtain ⟨other, _, _, hother, hlast, hnext, hlast'⟩ :=
          rewriteSite?_of_two hread' hearlier' hearlier annotated' annotated
        obtain rfl := Option.some.inj (h.symm.trans hnext)
        obtain rfl := Option.some.inj (h'.symm.trans hlast')
        exact ⟨other, hother, hlast⟩

/-! ### Edits in place -/

namespace Action

/-- The line that an edit in place is for. New footnotes and edits of manifests have none. -/
def inPlace? : Action → Option Nat
  | site _ line _ _ => some line
  | footnote _ 0 _ _ => none
  | footnote _ (n + 1) _ _ => some (n + 1)
  | setHash _ _ _ => none
  | dropHash _ _ => none

theorem inPlace?_footnote (path : Path) (line : Nat) (id : RequirementId) (payload : Text) :
    (footnote path line id payload).inPlace? = if line = 0 then none else some line := by
  cases line with
  | zero => rfl
  | succ n => rfl

/-- What an edit in place makes of its line, if the line holds what it expects. -/
def rewrite? : Action → Text → Option Text
  | site _ line id payload, t => rewriteSite? line id.name payload t
  | footnote _ line id payload, t => if isFootnoteOf line t id.name then some payload else none
  | setHash _ _ _, t => some t
  | dropHash _ _, t => some t

/-- Edits that can be carried out in either order. -/
inductive Apart : Action → Action → Prop where
  | same (a : Action) : Apart a a
  /-- New footnotes are added after all edits in place. -/
  | idle {a b : Action} (h : a.inPlace? = none) : Apart a b
  | lines {a b : Action} (h : a.inPlace? ≠ b.inPlace?) : Apart a b
  | markers {path path' : Path} {line : Nat} {id id' : RequirementId} {status status' : SiteStatus}
      (names : id.name ≠ id'.name) (annotated : status ≠ .bare) (annotated' : status' ≠ .bare) :
      Apart (.site path line id (Site.render id.name status)) (.site path' line id' (Site.render id'.name status'))

end Action

namespace LineFile

variable {path path' : Path} {f f' : LineFile} {a b : Action}

theorem patch_of_idle (path : Path) (f : LineFile) (h : a.inPlace? = none) : f.patch path a = .ok f := by
  cases a with
  | site _ line _ _ => cases h
  | footnote _ line _ _ =>
      cases line with
      | zero => rfl
      | succ n => cases h
  | setHash _ _ _ => rfl
  | dropHash _ _ => rfl

/-- An edit in place is carried out exactly if its line is there and can be rewritten. -/
theorem patch_eq_ok_iff {line : Nat} (h : a.inPlace? = some line) :
    f.patch path a = .ok f' ↔
      ∃ t t', f.line? line = some t ∧ a.rewrite? t = some t' ∧ f' = f.setLine line t' := by
  cases a with
  | site p n id payload =>
      obtain rfl := Option.some.inj h
      refine patchSite_eq_ok_iff.trans (exists_congr fun t => ?_)
      simp only [Action.rewrite?, rewriteSite?, Option.bind_eq_some_iff]
      constructor
      · rintro ⟨s, t', hline, hsite, hreplaced, rfl⟩
        exact ⟨t', hline, ⟨s, hsite, hreplaced⟩, rfl⟩
      · rintro ⟨t', hline, ⟨s, hsite, hreplaced⟩, rfl⟩
        exact ⟨s, t', hline, hsite, hreplaced, rfl⟩
  | footnote p n id payload =>
      cases n with
      | zero => cases h
      | succ n =>
          obtain rfl := Option.some.inj h
          refine patchFootnote_eq_ok_iff.trans (exists_congr fun t => ?_)
          simp [Action.rewrite?]
  | setHash _ _ _ => cases h
  | dropHash _ _ => cases h

/-- The path of a file tells in its errors only. -/
theorem patch_congr_path (path' : Path) (h : f.patch path a = .ok f') : f.patch path' a = .ok f' := by
  cases hplace : a.inPlace? with
  | none =>
      rw [patch_of_idle path f hplace] at h
      rw [patch_of_idle path' f hplace, h]
  | some line => exact (patch_eq_ok_iff hplace).mpr ((patch_eq_ok_iff hplace).mp h)

theorem foldlM_patch_congr_path (path' : Path) {actions : List Action}
    (h : actions.foldlM (patch path) f = .ok f') : actions.foldlM (patch path') f = .ok f' := by
  induction actions generalizing f with
  | nil => exact h
  | cons a actions ih =>
      rw [List.foldlM_cons] at h ⊢
      obtain ⟨next, hfirst, hrest⟩ := bind_eq_ok_iff.mp h
      exact bind_eq_ok_iff.mpr ⟨next, patch_congr_path path' hfirst, ih hrest⟩

/-! ### Lines of a file -/

theorem line?_setLine_self {line : Nat} {t : Text} (h : f.line? line = some t) (t' : Text) :
    (f.setLine line t').line? line = some t' := by
  obtain ⟨n, rfl, ht⟩ := exists_of_line? h
  exact List.getElem?_set_self (List.getElem?_eq_some_iff.mp ht).1

theorem line?_setLine_ne (f : LineFile) {line other : Nat} (h : line ≠ other) (t : Text) :
    (f.setLine line t).line? other = f.line? other := by
  cases line with
  | zero => rfl
  | succ n =>
      cases other with
      | zero => rfl
      | succ m => exact List.getElem?_set_ne (by omega)

theorem setLine_setLine (f : LineFile) (line : Nat) (t t' : Text) :
    (f.setLine line t).setLine line t' = f.setLine line t' := by
  cases line with
  | zero => rfl
  | succ n => simp [setLine]

theorem setLine_comm (f : LineFile) {line other : Nat} (h : line ≠ other) (t t' : Text) :
    (f.setLine line t).setLine other t' = (f.setLine other t').setLine line t := by
  cases line with
  | zero => rfl
  | succ n =>
      cases other with
      | zero => rfl
      | succ m => simp only [setLine, List.set_comm t t' (by omega : n ≠ m)]

end LineFile

/-! ### Edits in another order -/

namespace Action.Apart

open LineFile

variable {path : Path} {a b : Action}

/-- Edits of different lines can be swapped. -/
theorem swaps_of_lines {line other : Nat} (ha : a.inPlace? = some line) (hb : b.inPlace? = some other)
    (h : line ≠ other) (f : LineFile) : Swaps (patch path) f a b := by
  intro next last hfirst hsecond
  obtain ⟨t, t', hline, ht, rfl⟩ := (patch_eq_ok_iff ha).mp hfirst
  obtain ⟨u, u', hother, hu, rfl⟩ := (patch_eq_ok_iff hb).mp hsecond
  rw [line?_setLine_ne f h] at hother
  refine ⟨f.setLine other u', (patch_eq_ok_iff hb).mpr ⟨u, u', hother, hu, rfl⟩, ?_⟩
  apply (patch_eq_ok_iff ha).mpr
  exact ⟨t, t', (line?_setLine_ne f h.symm u').trans hline, ht, setLine_comm f h t' u'⟩

theorem swaps_of_idle (ha : a.inPlace? = none) (f : LineFile) : Swaps (patch path) f a b := by
  intro next last hfirst hsecond
  obtain rfl := Except.ok.inj ((patch_of_idle path f ha).symm.trans hfirst)
  exact ⟨last, hsecond, patch_of_idle path last ha⟩

/-- Edits that are apart can be swapped on every file. -/
theorem swaps (h : a.Apart b) (f : LineFile) : Swaps (patch path) f a b := by
  cases h with
  | same a => exact .refl _ _ _
  | idle ha => exact swaps_of_idle ha f
  | lines hne =>
      cases ha : a.inPlace? with
      | none => exact swaps_of_idle ha f
      | some line =>
          cases hb : b.inPlace? with
          | none =>
              intro next last hfirst hsecond
              obtain rfl := Except.ok.inj ((patch_of_idle path next hb).symm.trans hsecond)
              exact ⟨f, patch_of_idle path f hb, hfirst⟩
          | some other => exact swaps_of_lines ha hb (fun heq => hne (by rw [ha, hb, heq])) f
  | markers names annotated annotated' =>
      intro next last hfirst hsecond
      obtain ⟨t, t', hline, ht, rfl⟩ := (patch_eq_ok_iff rfl).mp hfirst
      obtain ⟨u, u', hother, hu, rfl⟩ := (patch_eq_ok_iff rfl).mp hsecond
      rw [line?_setLine_self hline] at hother
      obtain rfl := Option.some.inj hother
      obtain ⟨v, hv, hlast⟩ := rewriteSite?_swap names annotated annotated' ht hu
      refine ⟨f.setLine _ v, (patch_eq_ok_iff rfl).mpr ⟨t, v, hline, hv, rfl⟩, (patch_eq_ok_iff rfl).mpr ?_⟩
      exact ⟨v, u', line?_setLine_self hline v, hlast, by rw [setLine_setLine, setLine_setLine]⟩

end Action.Apart

/-- Edits of a document that are apart from each other leave the same text in every order, as long as the new
    footnotes keep theirs. -/
theorem patchDocument_reordered {path : Path} (path' : Path) {t t' : Text} {actions reordered : List Action}
    (perm : actions.Perm reordered) (apart : ∀ a ∈ actions, ∀ b ∈ actions, a.Apart b)
    (added : newFootnotes reordered = newFootnotes actions) (h : patchDocument path t actions = .ok t') :
    patchDocument path' t reordered = .ok t' := by
  obtain ⟨applied, happlied, hrender⟩ := bind_eq_ok_iff.mp h
  obtain ⟨patched, hpatched, hadded⟩ := bind_eq_ok_iff.mp happlied
  have hreordered : reordered.foldlM (LineFile.patch path) (LineFile.parse t) = .ok patched :=
    foldlM_of_perm (I := fun _ actions => ∀ a ∈ actions, ∀ b ∈ actions, a.Apart b)
      (fun perm h a ha b hb => h a (perm.mem_iff.mpr ha) b (perm.mem_iff.mpr hb))
      (fun h _ a ha b hb => h a (List.mem_cons_of_mem _ ha) b (List.mem_cons_of_mem _ hb))
      (fun h => (h _ (by simp) _ (by simp)).swaps _) perm apart hpatched
  refine bind_eq_ok_iff.mpr ⟨applied, bind_eq_ok_iff.mpr ⟨patched, ?_, ?_⟩, hrender⟩
  · exact LineFile.foldlM_patch_congr_path path' hreordered
  · rw [added]
    exact hadded

end ReqTrace
