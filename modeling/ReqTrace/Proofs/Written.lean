/-
Module: ReqTrace.Proofs.Written
Purpose: Reading a file after it has been written or removed, in any tree and by any path. What a write changes
  is not looked at on the way to it, so the path leads there again; after a removal nothing is found. A manifest is
  read back from the file that it was saved in.
Main exports: FileTree.Rewritten.locate_writing, FileTree.readText_writeText, FileTree.readText_remove,
  FileTree.HoldsManifest, Manifest.contents, FileTree.HoldsManifest.applyGroup, Manifest.render_lossless
-/
import ReqTrace.Apply
import ReqTrace.Proofs.Manifest
import ReqTrace.Proofs.Rewritten

namespace ReqTrace

/-- What is read in a place where a manifest has been saved. There is no file if it is empty. -/
def Manifest.contents (m : Manifest) : Except FileError Text :=
  if m.isEmpty then .error .notFound else .ok m.render

namespace FileTree

variable {t t' : FileTree}

/-! ### Walks to write -/

/-- What a walk to write comes to in one tree agrees with what it comes to in another one: the same link, or
    the same place with what is there. -/
def ComesTo (t' : FileTree) (progress : Progress) (result : Except FileError Progress) : Prop :=
  match progress with
  | .linked _ _ _ => result = .ok progress
  | .arrived names node => node ≠ some .directory → result = .ok (.arrived names (t'.node? names))

namespace Rewritten

theorem advance_writing (h : Rewritten t t') {slash : Bool} {current : Names} {left : List PathComponent}
    {progress : Progress} (hadvance : t.advance .writing slash current left = .ok progress) :
    ComesTo t' progress (t'.advance .writing slash current left) := by
  replace hadvance := advances_of_advance hadvance
  induction hadvance with
  | done current => exact fun hne => absurd rfl hne
  | root _ ih => exact ih
  | here _ ih => exact ih
  | up _ ih => exact ih
  | enter last short node _ ih =>
      rw [advance_enter last short ((h.directory_iff _).mpr node)]
      exact ih
  | @stop current name short stops =>
      refine fun _ => (Advances.stop short ?_).advance_eq
      -- A place that is open in one tree is open in the other.
      rcases h.nodes (current ++ [name]) with hsame | ⟨-, hopen'⟩
      · rw [hsame]
        exact stops
      · obtain rfl := stops.slash_of_writing
        exact .of_isOpen hopen'
  | link more short node => exact (Advances.link more short (h.link node)).advance_eq
  | lastLink last short node follows => exact (Advances.lastLink last short (h.link node) follows).advance_eq

/-- A walk to write leads to the same place. -/
theorem walk_writing (h : Rewritten t t') {links : Nat} {slash : Bool} {current names : Names}
    {left : List PathComponent} {node : Option Node}
    (hwalk : t.walk .writing links slash current left = .ok (names, node)) (file : node ≠ some .directory) :
    t'.walk .writing links slash current left = .ok (names, t'.node? names) := by
  replace hwalk := walks_of_walk hwalk
  induction hwalk with
  | arrived advances => exact walk_arrived (h.advance_writing advances file) _
  | linked advances _ ih => rw [walk_linked (h.advance_writing advances), ih]

/-- A path under which a file can be written leads to the same place. -/
theorem locate_writing (h : Rewritten t t') {p : Path} {names : Names} {node : Option Node}
    (hlocate : t.locate .writing p = .ok (names, node)) (file : node ≠ some .directory) :
    t'.locate .writing p = .ok (names, t'.node? names) := by
  obtain ⟨hzero, hlength, hempty, hwalk⟩ := locate_eq_ok_iff.mp hlocate
  refine locate_eq_ok_iff.mpr ⟨hzero, hlength, hempty, ?_⟩
  rw [h.workingDirectory]
  exact h.walk_writing hwalk file

/-- A tree with another file in a place for files. -/
theorem set {names : Names} (hne : names ≠ []) (hopen : IsOpen (t.node? names)) {node : Option Node}
    (hnode : IsOpen node) : Rewritten t (t.set names node) := by
  refine ⟨?_, fun other => ?_⟩
  · cases node <;> rfl
  · rw [node?_set hne]
    split
    · rename_i heq
      rw [heq]
      exact .inr ⟨hopen, hnode⟩
    · exact .inl rfl

end Rewritten

/-! ### Reading after writing -/

/-- Under a path that a text has been written to there is a place for files. -/
theorem exists_place_of_writeText {p : Path} {text : Text} (h : t.writeText p text = .ok t') :
    ∃ names, t.locate .writing p = .ok (names, t.node? names) ∧ names ≠ [] ∧ IsOpen (t.node? names) ∧
      t' = t.set names (some (.file (.text text))) := by
  obtain ⟨names, node, hlocate, hfile, rfl⟩ := writeText_eq_ok_iff.mp h
  obtain ⟨-, -, -, hwalk⟩ := locate_eq_ok_iff.mp hlocate
  obtain ⟨hne, rfl, hopen⟩ := node_of_walk hwalk hfile
  exact ⟨names, hlocate, hne, hopen (by simp), rfl⟩

/-- What has been written is read, whatever links are on the way. -/
theorem readText_writeText {p : Path} {text : Text} (h : t.writeText p text = .ok t') :
    t'.readText p = .ok text := by
  obtain ⟨names, hlocate, hne, hopen, rfl⟩ := exists_place_of_writeText h
  have hrewritten : Rewritten t (t.set names (some (.file (.text text)))) := .set hne hopen trivial
  have hwritten := hrewritten.locate_writing hlocate (isOpen_iff.mp hopen).1
  rw [node?_set hne, if_pos rfl] at hwritten
  exact readText_of_locate (locate_reading (by simp) hwritten)

/-! ### Reading after removing -/

/-- A walk to remove takes the steps of a walk to write, except that it ends at a link under the last name. -/
theorem advance_removing {slash : Bool} {current : Names} {left : List PathComponent} {progress : Progress}
    (h : t.advance .writing slash current left = .ok progress) :
    t.advance .removing slash current left = .ok progress ∨
      ∃ entry target, t.node? entry = some (.link target) ∧
        t.advance .removing slash current left = .ok (.arrived entry (some (.link target))) ∧
        progress = .linked entry.dropLast (steps target) (meansDirectory target) := by
  have hend : MayEnd .removing slash := by simp [MayEnd]
  replace h := advances_of_advance h
  induction h with
  | done current => exact .inl rfl
  | root _ ih => exact ih
  | here _ ih => exact ih
  | up _ ih => exact ih
  | enter last short node _ ih =>
      rw [advance_enter (fun _ => hend) short node]
      exact ih
  | stop short stops =>
      obtain rfl := stops.slash_of_writing
      exact .inl (Advances.stop short (.of_isOpen (stops.isOpen (by simp)))).advance_eq
  | link more short node => exact .inl (Advances.link more short node).advance_eq
  | @lastLink current name target last short node follows =>
      have hslash : slash = false := eq_false_of_ne_true fun h => last h rfl
      have hstops : StopsAt .removing slash (t.node? (current ++ [name])) := by
        rw [node]
        exact ⟨rfl, hslash⟩
      refine .inr ⟨current ++ [name], target, node, node ▸ (Advances.stop short hstops).advance_eq, ?_⟩
      rw [List.dropLast_concat, hslash, Bool.false_or]

/-- A walk to remove gets to where a walk to write gets, or to a link that leads there. -/
theorem walk_removing {links : Nat} {slash : Bool} {current names : Names} {left : List PathComponent}
    {node : Option Node} (h : t.walk .writing links slash current left = .ok (names, node)) :
    t.walk .removing links slash current left = .ok (names, node) ∨
      ∃ entry target links', t.node? entry = some (.link target) ∧
        t.walk .removing links slash current left = .ok (entry, some (.link target)) ∧
        t.walk .writing links' (meansDirectory target) entry.dropLast (steps target) = .ok (names, node) := by
  replace h := walks_of_walk h
  induction h with
  | arrived advances =>
      rcases advance_removing advances with hsame | ⟨entry, target, -, -, hprogress⟩
      · exact .inl (walk_arrived hsame _)
      · cases hprogress
  | linked advances rest ih =>
      rcases advance_removing advances with hsame | ⟨entry, target, hlink, hend, hprogress⟩
      · rw [walk_linked hsame]
        exact ih
      · cases hprogress
        exact .inr ⟨entry, target, _, hlink, walk_arrived hend _, rest.walk_eq⟩

/-- Under a path that files can be written under there is one to remove, or none. -/
theorem remove_cases {p : Path} {names : Names} {node : Option Node}
    (h : t.locate .writing p = .ok (names, node)) (file : node ≠ some .directory) :
    (∃ t', t.remove p = .ok t') ∨ node = none ∧ t.remove p = .error .notFound := by
  obtain ⟨hzero, hlength, hempty, hwalk⟩ := locate_eq_ok_iff.mp h
  rcases walk_removing hwalk with hremoving | ⟨entry, target, -, -, hremoving, -⟩
  · have hlocate := locate_eq_ok_iff.mpr ⟨hzero, hlength, hempty, hremoving⟩
    cases node with
    | none => exact .inr ⟨rfl, remove_of_locate_none hlocate⟩
    | some node => exact .inl ⟨_, remove_of_locate hlocate (by simpa using file)⟩
  · have hlocate := locate_eq_ok_iff.mpr ⟨hzero, hlength, hempty, hremoving⟩
    exact .inl ⟨_, remove_of_locate hlocate (by simp)⟩

/-- What a walk to read comes to when what a walk to remove comes to is gone: the same link, or nothing. -/
def ComesToNothing (removed : Names) (progress : Progress) (result : Except FileError Progress) : Prop :=
  result = .error .notFound ∨
    match progress with
    | .linked _ _ _ => result = .ok progress
    | .arrived _ _ => result = .ok (.arrived removed none)

/-- A walk to remove that ends in the place that is removed. -/
theorem advance_erase {removed : Names} (hne : removed ≠ []) (file : t.node? removed ≠ some .directory)
    {slash : Bool} {current : Names} {left : List PathComponent} {progress : Progress}
    (ends : ∀ names node, progress = .arrived names node →
      names = removed ∧ node ≠ none ∧ node ≠ some .directory)
    (h : t.advance .removing slash current left = .ok progress) :
    ComesToNothing removed progress ((t.erase removed).advance .reading slash current left) := by
  have hgone : ∀ names, (t.erase removed).node? names = if names = removed then none else t.node? names :=
    node?_set hne none
  have hend : MayEnd .reading slash := by simp [MayEnd]
  replace h := advances_of_advance h
  induction h with
  | done current => exact absurd rfl (ends _ _ rfl).2.2
  | root _ ih => exact ih ends
  | here _ ih => exact ih ends
  | up _ ih => exact ih ends
  | @enter current name left progress last short node _ ih =>
      have hother : current ++ [name] ≠ removed := fun heq => file (heq ▸ node)
      rw [advance_enter (fun _ => hend) short (by rw [hgone, if_neg hother, node])]
      exact ih ends
  | @stop current name short stops =>
      obtain rfl := (ends _ _ rfl).1
      have hnone : (t.erase (current ++ [name])).node? (current ++ [name]) = none := by rw [hgone, if_pos rfl]
      have hstops : StopsAt .reading slash ((t.erase (current ++ [name])).node? (current ++ [name])) := by
        rw [hnone]
        exact hend
      exact .inr (hnone ▸ (Advances.stop short hstops).advance_eq)
  | @link current name left target more short node =>
      by_cases hhere : current ++ [name] = removed
      · refine .inl ?_
        rw [advance, if_neg (by simp), if_neg (Nat.not_lt.mpr short), hgone, if_pos hhere]
        exact if_neg more
      · exact .inr (Advances.link more short (by rw [hgone, if_neg hhere, node])).advance_eq
  | lastLink last short node follows => exact absurd rfl follows

theorem walk_erase {removed : Names} (hne : removed ≠ []) (file : t.node? removed ≠ some .directory)
    {links : Nat} {slash : Bool} {current : Names} {left : List PathComponent} {node : Node}
    (hnode : node ≠ .directory)
    (h : t.walk .removing links slash current left = .ok (removed, some node)) :
    (t.erase removed).walk .reading links slash current left = .error .notFound ∨
      (t.erase removed).walk .reading links slash current left = .ok (removed, none) := by
  have hstop : ∀ {links slash current left},
      (t.erase removed).advance .reading slash current left = .error .notFound →
        (t.erase removed).walk .reading links slash current left = .error .notFound := by
    intro links slash current left hadvance
    rw [walk, hadvance]
    rfl
  replace h := walks_of_walk h
  induction h with
  | arrived advances =>
      have hcomes := advance_erase hne file (fun names node' heq => by
        cases heq
        exact ⟨rfl, by simp, by simpa using hnode⟩) advances
      exact hcomes.imp hstop fun hend => walk_arrived hend _
  | linked advances _ ih =>
      rcases advance_erase hne file (fun names node' heq => by cases heq) advances with hnone | hlinked
      · exact .inl (hstop hnone)
      · rw [walk_linked hlinked]
        exact ih

/-- What has been removed is not found, whatever links are on the way. -/
theorem readText_remove {p : Path} (h : t.remove p = .ok t') : t'.readText p = .error .notFound := by
  obtain ⟨names, node, hlocate, hnode, rfl⟩ := remove_eq_ok_iff.mp h
  obtain ⟨hzero, hlength, hempty, hwalk⟩ := locate_eq_ok_iff.mp hlocate
  have hfile : some node ≠ some .directory := by simpa using hnode
  obtain ⟨hne, hthere, -⟩ := node_of_walk hwalk hfile
  rcases walk_erase hne (hthere ▸ hfile) hnode hwalk with hstopped | hnothing
  · refine readText_of_locate_error ?_
    rw [locate_eq_walk _ _ hzero hlength hempty]
    exact hstopped
  · exact readText_of_locate (locate_eq_ok_iff.mpr ⟨hzero, hlength, hempty, hnothing⟩)

/-! ### Manifests -/

/-- The file of a path holds a manifest, or there is no file and the manifest is empty. A file can be written
    under the path. -/
structure HoldsManifest (t : FileTree) (p : Path) (m : Manifest) : Prop where
  loads : t.loadManifest p = .ok m
  writable : ∃ text t', t.writeText p text = .ok t'

/-- Where a path leads to the same in two trees, it is read alike. -/
theorem readText_congr {p : Path} {found : Names × Option Node} (h : t.locate .writing p = .ok found)
    (h' : t'.locate .writing p = .ok found) : t'.readText p = t.readText p := by
  rw [readText_of_locate (locate_reading (by simp) h'), readText_of_locate (locate_reading (by simp) h)]

/-- There it also holds the same manifest. -/
theorem HoldsManifest.congr {p : Path} {m : Manifest} {found : Names × Option Node}
    (h : t.locate .writing p = .ok found) (h' : t'.locate .writing p = .ok found)
    (holds : t.HoldsManifest p m) : t'.HoldsManifest p m := by
  obtain ⟨text, written, hwritten⟩ := holds.writable
  obtain ⟨names, node, hlocate, hfile, -⟩ := writeText_eq_ok_iff.mp hwritten
  refine ⟨?_, text, _, writeText_of_locate (h'.trans (h.symm.trans hlocate)) hfile text⟩
  rw [loadManifest, readText_congr h h']
  exact holds.loads

/-- The edits of a manifest can be carried out on the file that holds it. They leave no file if they leave the
    manifest empty, and else its text. -/
theorem HoldsManifest.applyGroup {e : FileEdits} (hkind : e.isManifest = true) {m : Manifest}
    (holds : t.HoldsManifest e.path m) :
    ∃ t', t.applyGroup e = .ok t' ∧ t'.readText e.path = (patchManifest m e.actions).contents := by
  obtain ⟨text, written, hwritten⟩ := holds.writable
  obtain ⟨names, hlocate, hne, hopen, -⟩ := exists_place_of_writeText hwritten
  have hfile := (isOpen_iff.mp hopen).1
  have happly : t.applyGroup e = t.saveManifest e.path (patchManifest m e.actions) := by
    rw [FileTree.applyGroup, if_pos hkind, holds.loads]
    rfl
  rw [happly, saveManifest, Manifest.contents]
  split
  · rename_i hempty
    rcases remove_cases hlocate hfile with ⟨t', hremoved⟩ | ⟨hnone, hmissing⟩
    · rw [hremoved]
      exact ⟨t', rfl, readText_remove hremoved⟩
    · rw [hmissing]
      exact ⟨t, rfl, readText_of_locate (locate_reading (by simp) (hnone ▸ hlocate))⟩
  · have hresult := writeText_of_locate hlocate hfile (patchManifest m e.actions).render
    rw [hresult]
    exact ⟨_, rfl, readText_writeText hresult⟩

/-- A manifest that is not empty is in the file that it was saved in. -/
theorem readText_saveManifest {p : Path} {m : Manifest} (hm : m.isEmpty = false)
    (h : t.saveManifest p m = .ok t') : t'.readText p = .ok m.render := by
  rw [saveManifest, hm] at h
  exact readText_writeText (mapError_eq_ok_iff.mp h)

theorem loadManifest_saveManifest {p : Path} {m : Manifest} (hm : m.isEmpty = false)
    (h : t.saveManifest p m = .ok t') : t'.loadManifest p = .ok m := by
  rw [loadManifest, readText_saveManifest hm h]
  exact mapError_eq_ok_iff.mpr m.parse_render

end FileTree

/-- Whatever the keys and hashes of a manifest are, its text is read back as this manifest and is the text of no
    other one. The text is an object with the entries in the order of the bytes of their keys, and one line feed
    after its brace. A manifest that is saved and is not empty is loaded again. -/
theorem Manifest.render_lossless (m : Manifest) :
    parse m.render = .ok m ∧
      (∀ m' : Manifest, m'.render = m.render → m' = m) ∧
      (∃ body, m.render = body ++ ['\n'] ∧ body.getLast? = some '\x7d') ∧
      Json.readObject m.render = .ok m.toList ∧
      (m.toList.Pairwise fun a b => compare (Text.utf8 a.1) (Text.utf8 b.1) = .lt) ∧
      ∀ (t t' : FileTree) (p : Path), m.isEmpty = false → t.saveManifest p m = .ok t' →
        t'.readText p = .ok m.render ∧ t'.loadManifest p = .ok m :=
  ⟨m.parse_render, fun _ h => render_injective h, m.exists_render_eq, m.readObject_render, m.bytes_ascending,
    fun _ _ _ hm h => ⟨FileTree.readText_saveManifest hm h, FileTree.loadManifest_saveManifest hm h⟩⟩

/-- Keys of one, three and four bytes, quotes, a backslash and control characters, in a file behind a link. -/
theorem Manifest.render_lossless_escapes :
    let m : Manifest := Table.ofList [("💥".toList, "\\".toList), ("日\x00".toList, "\"\n".toList),
      ("a\x1f".toList, [])]
    let p : Path := ⟨"/m.json".toList⟩
    let t : FileTree :=
      { nodes := Table.ofList [(["d".toList], .directory), (["m.json".toList], .link ⟨"d/n".toList⟩)]
        workingDirectory := [] }
    m.keys = ["a\x1f".toList, "日\x00".toList, "💥".toList] ∧
      m.render = "\x7b\n  \"a\\u001f\": \"\",\n  \"日\\u0000\": \"\\\"\\n\",\n  \"💥\": \"\\\\\"\n\x7d\n".toList ∧
      parse m.render = .ok m ∧
      ∃ t', t.saveManifest p m = .ok t' ∧ t'.node? ["d".toList, "n".toList] ≠ none ∧ t'.loadManifest p = .ok m := by
  intro m p t
  obtain ⟨hparse, -, -, -, -, hload⟩ := Manifest.render_lossless m
  have hsave : t.saveManifest p m = .ok (t.put ["d".toList, "n".toList] (.file (.text m.render))) := by
    decide +kernel
  exact ⟨by decide +kernel, by decide +kernel, hparse, _, hsave, by decide +kernel, (hload t _ p rfl hsave).2⟩

end ReqTrace
