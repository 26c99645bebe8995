/-
Module: ReqTrace.Proofs.Document.Accepted
Purpose: Which edits of markers are accepted. An edit looks at its line alone, while the parser first decides
  what a line is: a line of the header and a line shaped like a footnote are never searched for sites. So
  what an edit accepts is a site of the document on all lines but these.
Main exports: ParsedDocument.patchDocument_site_iff
-/
import ReqTrace.Proofs.Document.Edited
import ReqTrace.Proofs.Document.Located

namespace ReqTrace

namespace ParsedDocument

/-- One edit of a document is carried out exactly if it can be carried out on the lines of its file. -/
theorem exists_patchDocument_singleton_iff {path : Path} {t : Text} {a : Action} :
    (∃ t', patchDocument path t [a] = .ok t') ↔ ∃ f', (LineFile.parse t).patch path a = .ok f' := by
  constructor
  · intro h
    obtain ⟨t', h⟩ := h
    obtain ⟨applied, happlied, -⟩ := bind_eq_ok_iff.mp h
    obtain ⟨patched, hpatched, -⟩ := bind_eq_ok_iff.mp happlied
    rw [List.foldlM_cons] at hpatched
    obtain ⟨f', hfirst, -⟩ := bind_eq_ok_iff.mp hpatched
    exact ⟨f', hfirst⟩
  · intro h
    obtain ⟨f', hfirst⟩ := h
    have hpatched : [a].foldlM (LineFile.patch path) (LineFile.parse t) = .ok f' := by
      rw [List.foldlM_cons, hfirst]
      rfl
    exact ⟨_, bind_eq_ok_iff.mpr ⟨_, bind_eq_ok_iff.mpr ⟨f', hpatched, rfl⟩, rfl⟩⟩

/-- The edit of a marker is accepted exactly if its line is there, all markers of that line are well formed
    and one of them has the name of the requirement. The document has a site of that name on an accepted line
    exactly if the line comes after the header and is not shaped like a footnote. -/
theorem patchDocument_site_iff (path p : Path) (t : Text) (line : Nat) (requirement : RequirementId)
    (payload : Text) :
    let accepted := ∃ t', patchDocument path t [.site p line requirement payload] = .ok t'
    let reported := ∃ s ∈ (parse t).sites, s.line = line ∧ s.name = requirement.name
    (accepted ↔ ∃ text, ∃ sites : List Site, (LineFile.parse t).line? line = some text ∧
      Site.ofLine line text = sites.map .ok ∧ requirement.name ∈ sites.map Site.name) ∧
    (accepted → (reported ↔ (Header.ofLines (Text.lines t)).bodyStart < line ∧
      ∀ text, (LineFile.parse t).line? line = some text → Footnote.isFootnoteLine text = false)) := by
  intro accepted reported
  have haccepted : accepted ↔ ∃ text, ∃ sites : List Site, (LineFile.parse t).line? line = some text ∧
      Site.ofLine line text = sites.map .ok ∧ requirement.name ∈ sites.map Site.name := by
    rw [show accepted ↔ _ from exists_patchDocument_singleton_iff]
    constructor
    · intro h
      obtain ⟨f', h⟩ := h
      obtain ⟨text, s, -, hline, hsite, -⟩ := LineFile.patchSite_eq_ok_iff.mp h
      obtain ⟨sites, hread, hname⟩ := exists_siteOn?_iff.mp ⟨s, hsite⟩
      exact ⟨text, sites, hline, hread, hname⟩
    · intro h
      obtain ⟨text, sites, hline, hread, hname⟩ := h
      obtain ⟨s, hsite⟩ := exists_siteOn?_iff.mpr ⟨sites, hread, hname⟩
      obtain ⟨left, right, -, -, hreplaced⟩ := exists_cut_of_siteOn? hsite
      exact ⟨_, LineFile.patchSite_eq_ok_iff.mpr ⟨text, s, _, hline, hsite, hreplaced payload, rfl⟩⟩
  refine ⟨haccepted, fun h => ?_⟩
  obtain ⟨text, sites, hline, hread, hname⟩ := haccepted.mp h
  have hsites : ∀ s, s ∈ (parse t).sites ↔ (Header.ofLines (Text.lines t)).bodyStart < s.line ∧
      ∃ text, (LineFile.parse t).line? s.line = some text ∧ Footnote.isFootnoteLine text = false ∧
        .ok s ∈ Site.ofLine s.line text := by
    intro s
    rw [parse_eq_ofLines, header_eq_ofLines]
    exact mem_sites_iff
  constructor
  · intro hreported
    obtain ⟨s, hs, rfl, -⟩ := hreported
    obtain ⟨hbody, text', hline', hplain, -⟩ := (hsites s).mp hs
    refine ⟨hbody, fun text'' hline'' => ?_⟩
    rw [hline'] at hline''
    exact Option.some.inj hline'' ▸ hplain
  · intro hplace
    obtain ⟨s, hs, hsname⟩ := List.mem_map.mp hname
    have hmem : .ok s ∈ Site.ofLine line text := by
      rw [hread]
      exact List.mem_map_of_mem hs
    have hsline : s.line = line := Site.line_of_mem_ofLine hmem
    refine ⟨s, (hsites s).mpr ?_, hsline, hsname⟩
    rw [hsline]
    exact ⟨hplace.1, text, hline, hplace.2 text hline, hmem⟩

/-- An edit is accepted on a footnote whose hint looks like the marker, and on the closing fence of a header with
    a marker behind it. The document has no site on either line. -/
theorem patchDocument_site_footnote_or_fence :
    let t := "```\nreqmd.package: p\n``` `~A~`\n[^~B~]: `~A~`\n".toList
    let a : RequirementId := ⟨⟨['p'], by decide⟩, ⟨['A'], by decide⟩⟩
    let path : Path := ⟨"a.md".toList⟩
    let payload := Site.render a.name .covered
    ∀ line ∈ [3, 4],
      (∃ t', patchDocument path t [.site path line a payload] = .ok t') ∧
        ¬ ∃ s ∈ (parse t).sites, s.line = line ∧ s.name = a.name := by
  intro t a path payload line hline
  have hnote : (LineFile.parse t).line? 4 = some "[^~B~]: `~A~`".toList := by decide +kernel
  have hfence : (LineFile.parse t).line? 3 = some "``` `~A~`".toList := by decide +kernel
  obtain ⟨haccepted, hreported⟩ := patchDocument_site_iff path path t line a payload
  rcases List.mem_cons.mp hline with rfl | hline
  · have h := haccepted.mpr ⟨_, [Site.placed 3 4 a.name .bare], hfence, by decide +kernel, List.mem_cons_self⟩
    refine ⟨h, fun hsite => ?_⟩
    exact absurd ((hreported h).mp hsite).1 (by decide +kernel)
  · obtain rfl := List.mem_singleton.mp hline
    have h := haccepted.mpr ⟨_, [Site.placed 4 8 a.name .bare], hnote, by decide +kernel, List.mem_cons_self⟩
    refine ⟨h, fun hsite => ?_⟩
    exact absurd (((hreported h).mp hsite).2 _ hnote) (by decide +kernel)

end ParsedDocument

end ReqTrace
