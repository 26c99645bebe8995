/-
Module: ReqTrace.Proofs.Document.Matches
Purpose: No marker is overlooked. Wherever the quoted name of a requirement stands in a line, a match is
  found that starts there, unless its first backtick is the last one of a match before it. Matches do not
  overlap, each stands in the line as it was read, and the sites are read off them one by one.
Main exports: Marker.exists_read?_append, Marker.ascending_occurrences, Marker.disjoint_occurrences,
  Marker.textIn?_of_mem, Site.exists_match_or_closing, Site.ofLine_matches
-/
import ReqTrace.Proofs.Document.SiteLine
import ReqTrace.Proofs.Lists

namespace ReqTrace

open Text

/-! ### Matches of markers -/

namespace Marker

theorem read?_nil : read? [] = none := rfl

/-- A match has the characters of the marker that was read. -/
theorem read?_eq_some {t : Text} {m : Marker} {length : Nat} (h : read? t = some (m, length)) :
    length = m.text.length ∧ ∃ rest, t = m.text ++ rest := by
  obtain ⟨⟨m', rest⟩, hprefix, hpair⟩ := Option.bind_eq_some_iff.mp h
  cases hpair
  exact ⟨rfl, rest, (eq_of_readPrefix? hprefix).1⟩

/-- A quoted name is read, whatever follows it, with that name. -/
theorem exists_read?_append (name : Identifier) (rest : Text) :
    ∃ m, read? (Site.render name .bare ++ rest) = some (m, m.text.length) ∧ m.name = name.text := by
  have hrender : Site.render name .bare ++ rest = '`' :: '~' :: (name.text ++ '~' :: '`' :: rest) := by
    simp [Site.render, Site.markerOf, text_eq, glued, referenceText]
  have hhead := readHead?_head rest name.text_ne_nil fun c hc => Site.isNameChar_of_mem name hc
  refine ⟨(readGlued name.text rest).1, ?_, rfl⟩
  rw [read?, readPrefix?_eq, hrender, hhead]
  rfl

theorem ascending_occurrences (t : Text) : (occurrences read? t).Pairwise fun a b => a.1 < b.1 :=
  occurrencesFrom_ascending 0 0 t

/-- A match ends before the next one starts. -/
theorem disjoint_occurrences (t : Text) :
    (occurrences read? t).Pairwise fun a b => a.1 + byteLength a.2.text ≤ b.1 := by
  refine occurrencesFrom_disjoint (fun m : Marker => byteLength m.text) ?_ 0 0 t
  intro t m length h
  obtain ⟨rfl, rest, rfl⟩ := read?_eq_some h
  rw [List.take_left]

/-- Every match stands in the text as the marker that was read. -/
theorem textIn?_of_mem {t : Text} {p : Nat} {m : Marker} (h : (p, m) ∈ occurrences read? t) :
    Span.textIn? ⟨p, p + byteLength m.text⟩ t = some m.text := by
  obtain ⟨earlier, later, hsplit⟩ := List.append_of_mem h
  obtain ⟨before, u, length, rfl, hp, hread, -⟩ := occurrencesFrom_eq_append_cons hsplit
  obtain ⟨-, rest, rfl⟩ := read?_eq_some hread
  rw [hp, Nat.zero_add, ← List.append_assoc]
  exact Span.textIn?_append before m.text rest

end Marker

/-! ### Quoted names -/

namespace Site

/-- Where the quoted name of a requirement stands, a match with that name starts, or the backtick in front
    of the name is the last character of a match before it, which is a quoted name itself. -/
theorem exists_match_or_closing (left right : Text) (name : Identifier) :
    (∃ m, (byteLength left, m) ∈ occurrences Marker.read? (left ++ render name .bare ++ right) ∧
      m.name = name.text) ∨
    ∃ start m, (start, m) ∈ occurrences Marker.read? (left ++ render name .bare ++ right) ∧
      start < byteLength left ∧ m.text = m.head ∧ start + byteLength m.head = byteLength left + 1 := by
  obtain ⟨m, hread, hname⟩ := Marker.exists_read?_append name right
  obtain ⟨before, inside, found, length, rfl, hmem, hfirst, hinside⟩ :=
    exists_mem_occurrencesFrom Marker.read?_nil (Option.isSome_of_eq_some hread)
      (Nat.zero_le left.length) 0
  rw [Nat.zero_add, ← List.append_assoc] at hmem
  cases inside with
  | nil =>
      rw [List.nil_append, hread] at hfirst
      cases hfirst
      simp only [List.append_nil] at hmem ⊢
      exact .inl ⟨m, hmem, hname⟩
  | cons a inside =>
      -- The match before the quoted name reaches into it, and so up to its first backtick.
      obtain ⟨c, tail, htext, hstart⟩ := name.exists_text_eq_cons
      have hc : c ≠ ']' := by
        rintro rfl
        exact absurd hstart (by decide)
      obtain ⟨rest, hrender⟩ := exists_render_eq name .bare
      have hopening : a :: inside ++ (render name .bare ++ right) =
          a :: inside ++ Marker.opening c ++ (tail ++ '~' :: '`' :: rest ++ right) := by
        simp [hrender, htext, Marker.opening]
      rw [hopening] at hfirst
      have hlength := hinside.resolve_left (List.cons_ne_nil a inside)
      obtain ⟨hmatch, hhead⟩ := (Marker.read?_before_opening (List.cons_ne_nil a inside) hc
        hfirst).resolve_left (Nat.not_le_of_lt hlength)
      refine .inr ⟨byteLength before, found, hmem, ?_, hhead, ?_⟩
      · have hsize := a.utf8Size_pos
        rw [byteLength_append, byteLength_cons]
        omega
      · have hback : byteLength ['`'] = 1 := by decide
        rw [← hhead, hmatch, byteLength_append, hback, byteLength_append, Nat.add_assoc]

/-- The sites of a line and its malformed markers are read off the matches one by one. The matches are in
    order and apart from each other, and stand in the line. Wherever the quoted name of a requirement
    stands, exactly one match starts, or its first backtick closes a match before it. Every site stands in
    its place as its rendered marker. -/
theorem ofLine_matches (line : Nat) (t : Text) :
    let found := occurrences Marker.read? t
    ofLine line t = found.map (fun (start, m) => ofMarker line start m) ∧
    (∀ left right name, t = left ++ render name .bare ++ right →
      (∃ m, found.filter (·.1 == byteLength left) = [(byteLength left, m)] ∧ m.name = name.text) ∨
      ∃ start m, (start, m) ∈ found ∧ start < byteLength left ∧ m.text = m.head ∧
        start + byteLength m.head = byteLength left + 1) ∧
    found.Pairwise (fun a b => a.1 < b.1 ∧ a.1 + byteLength a.2.text ≤ b.1) ∧
    (∀ start m, (start, m) ∈ found →
      Span.textIn? ⟨start, start + byteLength m.text⟩ t = some m.text) ∧
    ∀ s, .ok s ∈ ofLine line t → s.span.textIn? t = some (render s.name s.status) := by
  intro found
  have hascending : found.Pairwise (fun a b => a.1 < b.1) := Marker.ascending_occurrences t
  refine ⟨rfl, ?_, hascending.and (Marker.disjoint_occurrences t), fun start m => Marker.textIn?_of_mem,
    fun s => textIn?_of_mem⟩
  intro left right name ht
  subst ht
  refine (exists_match_or_closing left right name).imp_left fun ⟨m, hmem, hname⟩ => ⟨m, ?_, hname⟩
  have hnodup : found.Nodup := hascending.imp fun hlt heq => absurd (congrArg Prod.fst heq) (Nat.ne_of_lt hlt)
  refine filter_eq_singleton hnodup hmem fun entry hentry => ?_
  rw [beq_iff_eq]
  constructor
  · -- No two matches start at one place.
    intro hstart
    exact eq_of_distinct (R := fun a b : Nat × Marker => a.1 = b.1) Eq.symm
      (hascending.imp fun hlt => Nat.ne_of_lt hlt) hentry hmem hstart
  · rintro rfl
    rfl

/-- Of two quoted names that share a backtick the first one gives a match and the second one none, and the
    annotated name behind them gives one again. -/
theorem ofLine_matches_shared_backtick :
    let t := "`~A~`~B~` `~C~`covered[^~C~]✅".toList
    let found := occurrences Marker.read? t
    found.map Prod.fst = [0, 10] ∧
      (∃ start m, (start, m) ∈ found ∧ start < 4 ∧ m.text = m.head ∧ start + byteLength m.head = 5) ∧
      ∃ m, found.filter (·.1 == 10) = [(10, m)] ∧ m.name = ['C'] := by
  intro t found
  have hstarts : found.map Prod.fst = [0, 10] := by decide +kernel
  have hnone : found.filter (·.1 == 4) = [] := by decide +kernel
  have hopen : ∀ entry ∈ found, ¬ entry.1 + byteLength entry.2.head = 11 := by decide +kernel
  obtain ⟨-, hmarkers, -⟩ := ofLine_matches 1 t
  refine ⟨hstarts, ?_, ?_⟩
  · refine (hmarkers "`~A~".toList " `~C~`covered[^~C~]✅".toList ⟨['B'], by decide⟩
      (by decide +kernel)).resolve_left fun hmatch => ?_
    obtain ⟨m, hmatch, -⟩ := hmatch
    exact absurd (hnone.symm.trans hmatch) (List.cons_ne_nil _ _).symm
  · refine (hmarkers "`~A~`~B~` ".toList "covered[^~C~]✅".toList ⟨['C'], by decide⟩
      (by decide +kernel)).resolve_right fun hclosing => ?_
    obtain ⟨start, m, hmem, -, -, hend⟩ := hclosing
    exact hopen _ hmem hend

end Site

end ReqTrace
