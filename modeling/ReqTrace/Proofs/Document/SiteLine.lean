/-
Module: ReqTrace.Proofs.Document.SiteLine
Purpose: The sites of a line. Every site stands in its line as its rendered marker, and replacing that
  marker by one with another status changes nothing but that status and the places of what follows.
Main exports: Site.placed, Site.exists_eq_append_render, Site.stop_le_start, Span.textIn?,
  Site.ofLine_replaceIn?
-/
import ReqTrace.LineFile
import ReqTrace.Proofs.Document.Footnote

namespace ReqTrace

open Text

/-! ### Markers of sites -/

namespace Site

theorem isNameChar_of_mem (name : Identifier) {c : Char} (hc : c ∈ name.text) :
    Marker.isNameChar c = true := by
  have htilde : c ≠ '~' := fun heq => name.not_mem_text (c := '~') (by decide) (heq ▸ hc)
  have hback : c ≠ '`' := fun heq => name.not_mem_text (c := '`') (by decide) (heq ▸ hc)
  simp [Marker.isNameChar, htilde, hback]

theorem isReferenceChar_of_mem (name : Identifier) {c : Char} (hc : c ∈ name.text) :
    Marker.isReferenceChar c = true := by
  have htilde : c ≠ '~' := fun heq => name.not_mem_text (c := '~') (by decide) (heq ▸ hc)
  have hbracket : c ≠ ']' := fun heq => name.not_mem_text (c := ']') (by decide) (heq ▸ hc)
  simp [Marker.isReferenceChar, htilde, hbracket]

/-- The marker of every status begins with the quoted name. -/
theorem exists_render_eq (name : Identifier) (status : SiteStatus) :
    ∃ rest, render name status = '`' :: '~' :: (name.text ++ '~' :: '`' :: rest) := by
  refine ⟨(markerOf name status).glued, ?_⟩
  rw [render, Marker.text_eq]
  cases status <;> rfl

theorem render_ne_nil (name : Identifier) (status : SiteStatus) : render name status ≠ [] :=
  Marker.text_ne_nil _

/-- A marker with a status is read back, whatever follows it. -/
theorem read?_render (name : Identifier) {status : SiteStatus} (annotated : status ≠ .bare)
    (rest : Text) : Marker.read? (render name status ++ rest) =
      some (markerOf name status, (render name status).length) := by
  have hname : (markerOf name status).name = name.text := by cases status <;> rfl
  have hword : ∀ c ∈ (markerOf name status).word, c.isAlpha = true := by
    cases status with
    | bare => exact absurd rfl annotated
    | covered => exact List.all_eq_true.mp (by decide : coveredWord.all Char.isAlpha = true)
    | uncovered => exact List.all_eq_true.mp (by decide : uncoveredWord.all Char.isAlpha = true)
  obtain ⟨g, hreference, hglyph⟩ : ∃ g, (markerOf name status).reference = some name.text ∧
      (markerOf name status).glyph = some g := by
    cases status with
    | bare => exact absurd rfl annotated
    | covered => exact ⟨_, rfl, rfl⟩
    | uncovered => exact ⟨_, rfl, rfl⟩
  have hread := Marker.readPrefix?_text rest (by rw [hname]; exact name.text_ne_nil)
    (by rw [hname]; exact fun c hc => isNameChar_of_mem name hc) hword hreference
    (fun c hc => isReferenceChar_of_mem name hc) hglyph
  rw [Marker.read?, render, hread]
  rfl

/-- The word that an annotation of a status says. -/
def statusWord? : SiteStatus → Option Text
  | .bare => none
  | .covered => some coveredWord
  | .uncovered => some uncoveredWord

/-- The site whose marker starts at a byte of a line. -/
def placed (line start : Nat) (name : Identifier) (status : SiteStatus) : Site :=
  { name, line, span := ⟨start, start + byteLength (render name status)⟩, status
    statusWord := statusWord? status }

theorem annotatedStatus_eq_ok {m : Marker} {name : Identifier} {status : SiteStatus}
    (h : annotatedStatus m name = .ok status) :
    status ≠ .bare ∧ m = { markerOf name status with name := m.name } := by
  obtain ⟨name', word, reference, glyph⟩ := m
  cases reference with
  | none => cases h
  | some reference =>
      cases glyph with
      | none => cases h
      | some glyph =>
          simp only [annotatedStatus] at h
          split at h
          · cases h
          · split at h
            · cases h
            · rename_i hname
              simp only [ne_eq, not_not] at hname
              split at h
              · rename_i hcovered
                cases h
                simp [markerOf, hcovered, hname]
              · split at h
                · rename_i huncovered
                  cases h
                  simp [markerOf, huncovered, hname]
                · cases h

/-- A well-formed marker is the rendered one, with a glued word after it if it is bare. -/
theorem ofMarker_eq_ok {line start : Nat} {m : Marker} {s : Site} (h : ofMarker line start m = .ok s) :
    s = placed line start s.name s.status ∧
      ∃ glued, m.text = render s.name s.status ++ glued ∧ (glued = [] ∨ glued = m.word) := by
  unfold ofMarker at h
  split at h
  · cases h
  · rename_i name hparse
    have hname : m.name = name.text := (Identifier.parse?_eq_some_iff.mp hparse).symm
    split at h
    · split at h
      · cases h
      · rename_i status hstatus
        cases h
        obtain ⟨hannotated, hm⟩ := annotatedStatus_eq_ok hstatus
        have hmarker : m = markerOf name status := by
          rw [hm, hname]
          cases status <;> rfl
        refine ⟨?_, [], ?_, .inl rfl⟩
        · rw [hmarker]
          cases status with
          | bare => exact absurd rfl hannotated
          | covered => rfl
          | uncovered => rfl
        · rw [hmarker, List.append_nil]
          rfl
    · rename_i hbare
      cases h
      simp only [isAnnotated, Bool.or_eq_true, not_or, Bool.not_eq_true, Option.isSome_eq_false_iff,
        Option.isNone_iff_eq_none] at hbare
      obtain ⟨⟨⟨hreference, hglyph⟩, -⟩, -⟩ := hbare
      have hhead : m.head = render name .bare := by
        simp [Marker.head, render, markerOf, Marker.text, Marker.referenceText, hname]
      refine ⟨?_, m.word, ?_, .inr rfl⟩
      · simp [placed, hhead, statusWord?]
      · simp [Marker.text, Marker.referenceText, hreference, hglyph, hhead]

/-! ### Replacing a marker -/

/-- The site after `removed` bytes before it have become `added` bytes. -/
def shift (removed added : Nat) (s : Site) : Site :=
  { s with span := ⟨s.span.start - removed + added, s.span.stop - removed + added⟩ }

theorem ofMarker_shift (line position removed added : Nat) (m : Marker) :
    ofMarker line (position + added) m =
      (ofMarker line (position + removed) m).map (shift removed added) := by
  have hend : ∀ length, position + removed + length - removed + added =
      position + added + length := by omega
  unfold ofMarker
  split
  · rfl
  · split
    · split
      · rfl
      · simp [Except.map, shift, hend]
    · simp [Except.map, shift, hend]

theorem annotatedStatus_markerOf (name : Identifier) {status : SiteStatus} (annotated : status ≠ .bare) :
    annotatedStatus (markerOf name status) name = .ok status := by
  have hword : coveredWord ≠ [] ∧ uncoveredWord ≠ [] ∧ uncoveredWord ≠ coveredWord := by decide
  cases status with
  | bare => exact absurd rfl annotated
  | covered => simp only [annotatedStatus, markerOf, hword, ne_eq, not_true_eq_false, if_false,
      and_self, if_true]
  | uncovered => simp only [annotatedStatus, markerOf, hword, ne_eq, not_true_eq_false, if_false,
      false_and, and_self, if_true]

/-- A rendered marker stands for the site with its name and status. -/
theorem ofMarker_markerOf (line start : Nat) (name : Identifier) (status : SiteStatus) :
    ofMarker line start (markerOf name status) = .ok (placed line start name status) := by
  have hparse : Identifier.parse? (markerOf name status).name = some name := by
    cases status <;> exact Identifier.parse?_text name
  unfold ofMarker
  rw [hparse]
  cases status with
  | bare =>
      have hplain : isAnnotated (markerOf name .bare) = false := rfl
      have hhead : (markerOf name .bare).head = render name .bare := by
        simp [render, markerOf, Marker.head, Marker.text, Marker.referenceText]
      simp only [hplain, hhead]
      rfl
  | covered =>
      have hstatus := annotatedStatus_markerOf name (by decide : SiteStatus.covered ≠ .bare)
      simp only [hstatus]
      rfl
  | uncovered =>
      have hstatus := annotatedStatus_markerOf name (by decide : SiteStatus.uncovered ≠ .bare)
      simp only [hstatus]
      rfl

theorem read?_eq_none {c : Char} (hc : c ≠ '`') (rest : Text) : Marker.read? (c :: rest) = none := by
  simp [Marker.read?, Marker.readPrefix?_eq, Marker.readHead?, hc.symm]

/-- The sites that the matches of markers stand for. -/
def readings (line : Nat) (found : List (Nat × Marker)) : List (Except SyntaxFault Site) :=
  found.map fun (start, marker) => ofMarker line start marker

/-- A line around the marker of one of its sites, to which letters may be glued. What is read before the
    marker does not depend on it, as long as the readers of markers do not see the difference. -/
theorem exists_cut {line : Nat} {t : Text} {s : Site} {earlier later : List (Except SyntaxFault Site)}
    (h : ofLine line t = earlier ++ .ok s :: later) :
    ∃ left glued after, t = left ++ (render s.name s.status ++ (glued ++ after)) ∧
      (∀ c ∈ glued, c ≠ '`') ∧ s = placed line (byteLength left) s.name s.status ∧
      later = readings line (occurrencesFrom Marker.read? 0
        (byteLength left + byteLength (render s.name s.status) + byteLength glued) after) ∧
      ∀ v, (∀ w, w ≠ [] → Marker.read? (w ++ v) =
          Marker.read? (w ++ (render s.name s.status ++ (glued ++ after)))) →
        ofLine line (left ++ v) =
          earlier ++ readings line (occurrencesFrom Marker.read? 0 (byteLength left) v) := by
  obtain ⟨found, found', hfound, rfl, hrest⟩ := List.map_eq_append_iff.mp h
  obtain ⟨⟨p, m⟩, found'', rfl, hs, rfl⟩ := List.map_eq_cons_iff.mp hrest
  obtain ⟨left, u, length, rfl, hp, hread, hlater, hother⟩ := occurrencesFrom_eq_append_cons hfound
  -- What is found at the cut is the rendered marker of the site, perhaps with a word glued to it.
  obtain ⟨⟨m', after⟩, hprefix, hpair⟩ := Option.bind_eq_some_iff.mp hread
  cases hpair
  obtain ⟨rfl, hword⟩ := Marker.eq_of_readPrefix? hprefix
  obtain ⟨hplaced, glued, htext, hglued⟩ := ofMarker_eq_ok hs
  have hmatch := occurrencesFrom_append_match p (Marker.text_ne_nil m) hread
  obtain ⟨-, hfound''⟩ := List.cons.inj (hlater.symm.trans hmatch)
  rw [Nat.zero_add] at hp
  refine ⟨left, glued, after, by rw [htext, List.append_assoc], ?_, by rw [← hp]; exact hplaced, ?_, ?_⟩
  · intro c hc heq
    rcases hglued with rfl | rfl
    · simp at hc
    · have halpha := hword c hc
      rw [heq] at halpha
      exact absurd halpha (by decide)
  · rw [hfound'', htext, byteLength_append, hp, Nat.add_assoc]
    rfl
  · intro v hv
    rw [ofLine, occurrences, hother v, List.map_append, hp]
    · rfl
    · intro w hw _
      rw [htext, List.append_assoc]
      exact hv w hw

/-- Markers with the same name open in the same way, so what is read before them is the same. -/
theorem read?_append_render {w : Text} (nonempty : w ≠ []) (name : Identifier)
    (status status' : SiteStatus) (rest rest' : Text) :
    Marker.read? (w ++ (render name status ++ rest)) =
      Marker.read? (w ++ (render name status' ++ rest')) := by
  obtain ⟨c, tail, hname, hstart⟩ := name.exists_text_eq_cons
  have hc : c ≠ ']' := by
    rintro rfl
    exact absurd hstart (by decide)
  have hopening : ∀ status rest, Marker.read? (w ++ (render name status ++ rest)) =
      Marker.read? (w ++ Marker.opening c) := by
    intro status rest
    obtain ⟨inner, hrender⟩ := exists_render_eq name status
    have hsplit : w ++ (render name status ++ rest) =
        w ++ Marker.opening c ++ (tail ++ '~' :: '`' :: inner ++ rest) := by
      simp [hrender, hname, Marker.opening]
    rw [hsplit, Marker.read?_append_opening nonempty hc]
  rw [hopening, hopening]

/-- A line around one of its sites. With another annotated status in place of the one of that site, all
    that is read before it stays, and all that is read after it only moves. -/
theorem exists_eq_append_render {line : Nat} {t : Text} {s : Site}
    {earlier later : List (Except SyntaxFault Site)}
    (h : ofLine line t = earlier ++ .ok s :: later) :
    ∃ left right, t = left ++ render s.name s.status ++ right ∧
      s = placed line (byteLength left) s.name s.status ∧
      ∀ status, status ≠ .bare →
        ofLine line (left ++ render s.name status ++ right) =
          earlier ++ .ok (placed line (byteLength left) s.name status) ::
            later.map (Except.map (shift (byteLength (render s.name s.status))
              (byteLength (render s.name status)))) := by
  obtain ⟨left, glued, after, rfl, hglued, hplaced, rfl, hother⟩ := exists_cut h
  refine ⟨left, glued ++ after, by simp, hplaced, ?_⟩
  intro status hstatus
  have hnew := hother (render s.name status ++ (glued ++ after)) fun w hw =>
    read?_append_render hw s.name status s.status _ _
  rw [occurrencesFrom_append_match _ (render_ne_nil s.name status)
      (read?_render s.name hstatus (glued ++ after)),
    occurrencesFrom_append_of_none _ fun c hc rest => read?_eq_none (hglued c hc) rest] at hnew
  -- What follows is found at places that differ by the lengths of the two markers only.
  have hold : byteLength left + byteLength (render s.name s.status) + byteLength glued =
      byteLength left + byteLength glued + byteLength (render s.name s.status) := by omega
  have hmoved : byteLength left + byteLength (render s.name status) + byteLength glued =
      byteLength left + byteLength glued + byteLength (render s.name status) := by omega
  rw [hmoved, occurrencesFrom_shift] at hnew
  rw [List.append_assoc, hnew, hold, occurrencesFrom_shift _ 0 (byteLength left + byteLength glued)
    (byteLength (render s.name s.status))]
  simp only [readings, List.map_cons, ofMarker_markerOf, List.map_map]
  refine congrArg _ (congrArg _ (List.map_congr_left fun entry _ => ?_))
  exact ofMarker_shift line entry.1 _ _ entry.2

/-- A line around a marker that is one of its sites, with another annotated status in place of the one there. -/
theorem ofLine_rewritten {line : Nat} {left right : Text} {name : Identifier} {old status : SiteStatus}
    {earlier later : List (Except SyntaxFault Site)}
    (h : ofLine line (left ++ render name old ++ right) =
      earlier ++ .ok (placed line (byteLength left) name old) :: later) (annotated : status ≠ .bare) :
    ofLine line (left ++ render name status ++ right) =
      earlier ++ .ok (placed line (byteLength left) name status) ::
        later.map (Except.map (shift (byteLength (render name old)) (byteLength (render name status)))) := by
  obtain ⟨left', right', htext, hplaced, hother⟩ := exists_eq_append_render h
  have hlength : byteLength left = byteLength left' := congrArg (·.span.start) hplaced
  -- The two cuts of the line are at the same place.
  have hcut := splitAtByte?_append left (render name old ++ right)
  rw [← List.append_assoc, htext, hlength, List.append_assoc, splitAtByte?_append] at hcut
  obtain ⟨rfl, hrest⟩ := Prod.mk.inj (Option.some.inj hcut)
  obtain rfl := List.append_cancel_left hrest
  exact hother status annotated

/-- A site ends before the next one starts. -/
theorem stop_le_start {line : Nat} {t : Text} {s s' : Site}
    {earlier later : List (Except SyntaxFault Site)}
    (h : ofLine line t = earlier ++ .ok s :: later) (hs' : .ok s' ∈ later) :
    s.span.stop ≤ s'.span.start := by
  obtain ⟨left, glued, after, -, -, hplaced, rfl, -⟩ := exists_cut h
  obtain ⟨⟨p, m⟩, hfound, hmarker⟩ := List.mem_map.mp hs'
  have hp := le_of_mem_occurrencesFrom hfound
  have hstart : s'.span.start = p := by
    rw [(ofMarker_eq_ok hmarker).1]
    rfl
  have hstop : s.span.stop = byteLength left + byteLength (render s.name s.status) := by
    rw [hplaced]
    rfl
  rw [hstart, hstop]
  simp only [List.take_zero, byteLength_nil] at hp
  omega

end Site

/-! ### Patched lines -/

/-- The text at a span of a line, if there is one. -/
def Span.textIn? (span : Span) (t : Text) : Option Text := do
  guard (span.start ≤ span.stop)
  let (_, rest) ← splitAtByte? span.start t
  let (inner, _) ← splitAtByte? (span.stop - span.start) rest
  return inner

/-- A part of a line has a span, and replacing that span replaces that part. -/
theorem LineFile.replaceIn?_append (left part right payload : Text) :
    LineFile.replaceIn? (left ++ part ++ right) ⟨byteLength left, byteLength left + byteLength part⟩
      payload = some (left ++ payload ++ right) := by
  have hlength : byteLength left + byteLength part - byteLength left = byteLength part := by omega
  rw [LineFile.replaceIn?, List.append_assoc left part right]
  simp [splitAtByte?_append, hlength]

theorem Span.textIn?_append (left part right : Text) :
    Span.textIn? ⟨byteLength left, byteLength left + byteLength part⟩ (left ++ part ++ right) =
      some part := by
  have hlength : byteLength left + byteLength part - byteLength left = byteLength part := by omega
  rw [Span.textIn?, List.append_assoc left part right]
  simp [splitAtByte?_append, hlength]

namespace Site

/-- The site with another status in its place. Its span is that of the other marker. -/
def withStatus (s : Site) (status : SiteStatus) : Site :=
  { s with
    span := ⟨s.span.start, s.span.start + byteLength (render s.name status)⟩
    status
    statusWord := statusWord? status }

theorem not_mem_render (name : Identifier) (status : SiteStatus) : '\n' ∉ render name status := by
  have hname : '\n' ∉ name.text := name.not_mem_text (by decide)
  have hcovered : '\n' ∉ coveredWord := by decide
  have huncovered : '\n' ∉ uncoveredWord := by decide
  cases status with
  | bare => simp [render, markerOf, Marker.text_eq, Marker.glued, Marker.referenceText, hname]
  | covered =>
      simp [render, markerOf, Marker.text_eq, Marker.glued, Marker.referenceText, hname, hcovered,
        Glyph.char]
  | uncovered =>
      simp [render, markerOf, Marker.text_eq, Marker.glued, Marker.referenceText, hname, huncovered,
        Glyph.char]

/-- Every site stands in its line as its rendered marker. -/
theorem textIn?_of_mem {line : Nat} {t : Text} {s : Site} (h : .ok s ∈ ofLine line t) :
    s.span.textIn? t = some (render s.name s.status) := by
  obtain ⟨earlier, later, hsplit⟩ := List.append_of_mem h
  obtain ⟨left, right, rfl, hplaced, -⟩ := exists_eq_append_render hsplit
  have hspan : s.span = ⟨byteLength left, byteLength left + byteLength (render s.name s.status)⟩ := by
    rw [hplaced]
    rfl
  rw [hspan]
  exact Span.textIn?_append left _ right

/-- Whether a line is shaped like a footnote does not depend on the status of a site on it. -/
theorem isFootnoteLine_render (left right : Text) (name : Identifier) (status status' : SiteStatus) :
    Footnote.isFootnoteLine (left ++ render name status ++ right) =
      Footnote.isFootnoteLine (left ++ render name status' ++ right) := by
  obtain ⟨c, tail, hname, hstart⟩ := name.exists_text_eq_cons
  have hc : c ≠ ']' := by
    rintro rfl
    exact absurd hstart (by decide)
  have himp : ∀ status status', Footnote.isFootnoteLine (left ++ render name status' ++ right) = true →
      Footnote.isFootnoteLine (left ++ render name status ++ right) = true := by
    intro status status' h
    obtain ⟨rest, hrender⟩ := exists_render_eq name status
    obtain ⟨rest', hrender'⟩ := exists_render_eq name status'
    have hopening : ∀ rest, left ++ '`' :: '~' :: (name.text ++ '~' :: '`' :: rest) ++ right =
        left ++ Marker.opening c ++ (tail ++ '~' :: '`' :: rest ++ right) := by
      simp [hname, Marker.opening]
    have hplain := not_mem_render name status
    rw [hrender, hname] at hplain
    rw [hrender', hopening] at h
    rw [hrender, hopening]
    refine Footnote.isFootnoteLine_append_opening hc left (fun hfeed => ?_) h
    simp only [List.mem_append, List.mem_cons, List.cons_append] at hfeed hplain ⊢
    tauto
  exact Bool.eq_iff_iff.mpr ⟨himp status' status, himp status status'⟩

/-- Giving one site of a line an annotated status changes that site and no other. The sites before it
    keep their places, the ones after it move by the difference of the lengths, every site still stands
    in its place as its marker, and the line does not turn into a footnote or cease to be one. -/
theorem ofLine_replaceIn? {line : Nat} {t : Text} {before after : List Site} {s : Site}
    {status : SiteStatus} (h : ofLine line t = (before ++ s :: after).map .ok)
    (annotated : status ≠ .bare) :
    let moved := after.map
      (shift (byteLength (render s.name s.status)) (byteLength (render s.name status)))
    ∃ t', LineFile.replaceIn? t s.span (render s.name status) = some t' ∧
      ofLine line t' = (before ++ s.withStatus status :: moved).map .ok ∧
      (∀ x ∈ before, x.span.stop ≤ s.span.start) ∧
      (∀ x ∈ after, s.span.stop ≤ x.span.start) ∧
      (∀ x ∈ before ++ s :: after, x.span.textIn? t = some (render x.name x.status)) ∧
      (∀ x ∈ before ++ s.withStatus status :: moved,
        x.span.textIn? t' = some (render x.name x.status)) ∧
      Footnote.isFootnoteLine t' = Footnote.isFootnoteLine t := by
  intro moved
  have hsplit : ofLine line t = before.map .ok ++ .ok s :: after.map .ok := by
    rw [h, List.map_append, List.map_cons]
  obtain ⟨left, right, htext, hplaced, hother⟩ := exists_eq_append_render hsplit
  have hspan : s.span = ⟨byteLength left, byteLength left + byteLength (render s.name s.status)⟩ := by
    rw [hplaced]
    rfl
  have hstatus : placed line (byteLength left) s.name status = s.withStatus status := by
    rw [hplaced]
    rfl
  have hnew : ofLine line (left ++ render s.name status ++ right) =
      (before ++ s.withStatus status :: moved).map .ok := by
    rw [hother status annotated, hstatus, List.map_append, List.map_cons, List.map_map, List.map_map]
    rfl
  refine ⟨left ++ render s.name status ++ right, ?_, hnew, ?_, ?_, ?_, ?_, ?_⟩
  · rw [htext, hspan]
    exact LineFile.replaceIn?_append left _ right _
  · intro x hx
    obtain ⟨first, rest, rfl⟩ := List.append_of_mem hx
    have hbefore : ofLine line t =
        first.map .ok ++ .ok x :: (rest ++ s :: after).map .ok := by rw [h]; simp
    exact stop_le_start hbefore (List.mem_map_of_mem (by simp))
  · intro x hx
    exact stop_le_start hsplit (List.mem_map_of_mem hx)
  · intro x hx
    exact textIn?_of_mem (by rw [h]; exact List.mem_map_of_mem hx)
  · intro x hx
    exact textIn?_of_mem (by rw [hnew]; exact List.mem_map_of_mem hx)
  · rw [htext]
    exact isFootnoteLine_render left right s.name status s.status

/-- The first of two bare sites becomes covered, and the second one moves. -/
theorem ofLine_replaceIn?_first_of_two :
    ∃ t', LineFile.replaceIn? "`~A~` or `~B~`".toList ⟨0, 5⟩ (render ⟨['A'], by decide⟩ .covered) =
        some t' ∧
      ofLine 1 t' = [placed 1 0 ⟨['A'], by decide⟩ .covered, placed 1 25 ⟨['B'], by decide⟩ .bare].map
        .ok := by
  have h : ofLine 1 "`~A~` or `~B~`".toList =
      ([] ++ placed 1 0 ⟨['A'], by decide⟩ .bare :: [placed 1 9 ⟨['B'], by decide⟩ .bare]).map .ok := by
    decide
  obtain ⟨t', hreplaced, hsites, -⟩ := ofLine_replaceIn? h (by decide : SiteStatus.covered ≠ .bare)
  exact ⟨t', hreplaced, hsites.trans (by decide)⟩

end Site

end ReqTrace
