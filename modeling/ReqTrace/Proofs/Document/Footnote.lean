/-
Module: ReqTrace.Proofs.Document.Footnote
Purpose: Footnote lines. A rendered footnote is read back with all its links, and a marker in a line does
  not decide whether the line is shaped like a footnote.
Main exports: Coverer.Linkable, Footnote.shape?_eq_some_iff, Footnote.ofLine?_render,
  Footnote.isFootnoteLine_append_opening, Footnote.ofLine?_eq_ok_iff, Footnote.Writable,
  Footnote.ofLine?_inverse_render
-/
import ReqTrace.Document.Footnote
import ReqTrace.Proofs.Document.Marker
import ReqTrace.Proofs.Identifier

namespace ReqTrace

open Text

/-! ### Links -/

namespace Coverer

/-- A link that can stand in a line: its label has no line feed, and its target is one that links can
    have. -/
structure Linkable (c : Coverer) : Prop where
  label : '\n' ∉ c.label
  url : ∀ x ∈ c.url, isUrlChar x = true

instance (c : Coverer) : Decidable c.Linkable :=
  decidable_of_iff ('\n' ∉ c.label ∧ c.url.all isUrlChar = true)
    ⟨fun h => ⟨h.1, List.all_eq_true.mp h.2⟩, fun h => ⟨h.label, List.all_eq_true.mpr h.url⟩⟩

/-- A label is read back up to the bracket after it. -/
theorem readLabel?_escape (label rest : Text) :
    readLabel? (escape label ++ ']' :: rest) = some (label, rest) := by
  induction label with
  | nil => simp [escape, readLabel?]
  | cons c cs ih =>
      rw [escape]
      split
      · rename_i hprotected
        have hfeed : c ≠ '\n' := by
          rintro rfl
          exact absurd hprotected (by decide)
        rw [List.cons_append, List.cons_append, readLabel?, if_neg hfeed, ih]
        rfl
      · rename_i hplain
        have hback : c ≠ '\\' := by
          rintro rfl
          exact hplain (by decide)
        have hclose : c ≠ ']' := by
          rintro rfl
          exact hplain (by decide)
        rw [List.cons_append, readLabel?, ih]
        · rfl
        · exact fun heq => hclose heq
        · exact fun heq _ => hback heq
        · exact fun _ _ heq _ => hback heq

theorem isUrlChar_close : isUrlChar ')' = false := by decide

theorem read?_render {c : Coverer} (url : ∀ x ∈ c.url, isUrlChar x = true) (rest : Text) :
    read? (render c ++ rest) = some (c, rest) := by
  have hlabel := readLabel?_escape c.label ('(' :: (c.url ++ ')' :: rest))
  have htake := takeWhile_append_cons rest url isUrlChar_close
  have hdrop := dropWhile_append_cons rest url isUrlChar_close
  have htext : render c ++ rest =
      '[' :: (escape c.label ++ ']' :: '(' :: (c.url ++ ')' :: rest)) := by simp [render]
  rw [htext, read?]
  simp [hlabel, htake, hdrop]

theorem renderList_cons_cons (c c' : Coverer) (cs : List Coverer) :
    renderList (c :: c' :: cs) = render c ++ ',' :: ' ' :: renderList (c' :: cs) := by
  simp [renderList, join]

theorem exists_renderList_eq (c : Coverer) (cs : List Coverer) :
    ∃ rest, renderList (c :: cs) = '[' :: rest := by
  cases cs with
  | nil => exact ⟨_, by simp [renderList, join, render]; rfl⟩
  | cons c' cs => exact ⟨_, by rw [renderList_cons_cons, render]; rfl⟩

theorem exists_renderList_eq_append (c : Coverer) (cs : List Coverer) :
    ∃ rest, renderList (c :: cs) = rest ++ [')'] := by
  induction cs generalizing c with
  | nil => exact ⟨'[' :: escape c.label ++ "](".toList ++ c.url, by simp [renderList, join, render]⟩
  | cons c' cs ih =>
      obtain ⟨rest, hrest⟩ := ih c'
      exact ⟨render c ++ ',' :: ' ' :: rest, by rw [renderList_cons_cons, hrest]; simp⟩

/-- The reader of a list takes a link, and then there is the end, or a comma and more links. -/
theorem readList?_succ_eq_some_iff {fuel : Nat} {t : Text} {cs : List Coverer} :
    readList? (fuel + 1) t = some cs ↔ ∃ c rest, read? t = some (c, rest) ∧
      (trimStart rest = [] ∧ cs = [c] ∨ ∃ rest' others, trimStart rest = ',' :: rest' ∧
        readList? fuel (trimStart rest') = some others ∧ cs = c :: others) := by
  rw [readList?, Option.bind_eq_bind, Option.bind_eq_some_iff]
  constructor
  · rintro ⟨⟨c, rest⟩, hread, hmore⟩
    refine ⟨c, rest, hread, ?_⟩
    simp only at hmore
    split at hmore
    · rename_i hend
      cases hmore
      exact .inl ⟨hend, rfl⟩
    · rename_i rest' hcomma
      obtain ⟨others, hothers, heq⟩ := Option.bind_eq_some_iff.mp hmore
      cases heq
      exact .inr ⟨rest', others, hcomma, hothers, rfl⟩
    · cases hmore
  · rintro ⟨c, rest, hread, ⟨hend, rfl⟩ | ⟨rest', others, hcomma, hothers, rfl⟩⟩
    · refine ⟨(c, rest), hread, ?_⟩
      simp only [hend]
      rfl
    · refine ⟨(c, rest), hread, ?_⟩
      simp only [hcomma, hothers]
      rfl

/-- Links with commas between them are read back. -/
theorem readList?_renderList {cs : List Coverer} (nonempty : cs ≠ [])
    (url : ∀ c ∈ cs, ∀ x ∈ c.url, isUrlChar x = true) {fuel : Nat} (enough : cs.length ≤ fuel) :
    readList? fuel (renderList cs) = some cs := by
  induction cs generalizing fuel with
  | nil => exact absurd rfl nonempty
  | cons c cs ih =>
      obtain ⟨fuel, rfl⟩ : ∃ n, fuel = n + 1 := ⟨fuel - 1, by simp at enough; omega⟩
      have hfirst := url c List.mem_cons_self
      cases cs with
      | nil =>
          have hread := read?_render hfirst []
          have htext : renderList [c] = render c ++ [] := by simp [renderList, join]
          rw [htext]
          exact readList?_succ_eq_some_iff.mpr ⟨c, [], hread, .inl ⟨rfl, rfl⟩⟩
      | cons c' cs =>
          obtain ⟨rest, hrest⟩ := exists_renderList_eq c' cs
          have htail := ih (by simp) (fun c hc => url c (List.mem_cons_of_mem _ hc))
            (by simpa using enough)
          have hcomma : isBlankChar ',' = false := by decide
          have hspace : isBlankChar ' ' = true := by decide
          have hbracket : isBlankChar '[' = false := by decide
          have hafter : trimStart (',' :: ' ' :: renderList (c' :: cs)) =
              ',' :: ' ' :: renderList (c' :: cs) := by simp [trimStart, hcomma]
          have hnext : trimStart (' ' :: renderList (c' :: cs)) = renderList (c' :: cs) := by
            simp [trimStart, hspace, hrest, hbracket]
          rw [renderList_cons_cons]
          exact readList?_succ_eq_some_iff.mpr
            ⟨c, _, read?_render hfirst _, .inr ⟨_, _, hafter, by rw [hnext, htail], rfl⟩⟩

theorem length_le_length_renderList (cs : List Coverer) : cs.length ≤ (renderList cs).length := by
  induction cs with
  | nil => simp
  | cons c cs ih =>
      cases cs with
      | nil => simp [renderList, join, render]
      | cons c' cs =>
          rw [renderList_cons_cons]
          simp only [List.length_append, List.length_cons] at ih ⊢
          omega

/-- The links after the hint of a footnote are read back. -/
theorem parseList?_renderList {cs : List Coverer}
    (url : ∀ c ∈ cs, ∀ x ∈ c.url, isUrlChar x = true) :
    parseList? (if cs.isEmpty then [] else ' ' :: renderList cs) = some cs := by
  cases cs with
  | nil => rfl
  | cons c cs =>
      obtain ⟨rest, hrest⟩ := exists_renderList_eq c cs
      obtain ⟨body, hbody⟩ := exists_renderList_eq_append c cs
      have hspace : isBlankChar ' ' = true := by decide
      have hopen : isBlankChar '[' = false := by decide
      have hclose : isBlankChar ')' = false := by decide
      have hstart : trimStart (' ' :: renderList (c :: cs)) = renderList (c :: cs) := by
        simp [trimStart, hspace, hrest, hopen]
      have hend : trimEnd (renderList (c :: cs)) = renderList (c :: cs) := by
        rw [hbody]
        simp [trimEnd, dropWhileEnd, hclose]
      have htrim : trim (' ' :: renderList (c :: cs)) = renderList (c :: cs) := by
        rw [trim, hstart, hend]
      have hread := readList?_renderList (by simp) url (length_le_length_renderList (c :: cs))
      simp only [List.isEmpty_cons, Bool.false_eq_true, if_false, parseList?, htrim]
      rw [hrest] at hread ⊢
      exact hread

end Coverer

/-! ### Shapes -/

namespace Footnote

/-- A line is shaped like a footnote if it starts with a reference and a colon and has no line feed after
    them. -/
theorem shape?_eq_some_iff {t name body : Text} :
    shape? t = some (name, body) ↔
      t = '[' :: '^' :: '~' :: (name ++ '~' :: ']' :: ':' :: body) ∧ name ≠ [] ∧
        (∀ c ∈ name, isNameChar c = true) ∧ '\n' ∉ body := by
  constructor
  · intro h
    simp only [shape?, Option.bind_eq_bind, Option.bind_eq_some_iff] at h
    obtain ⟨inner, hopen, _, hname, body', hclose, _, hbody, hpair⟩ := h
    cases hpair
    have hinner : inner.dropWhile isNameChar = '~' :: ']' :: ':' :: body :=
      dropLead?_eq_some_iff.mp hclose
    refine ⟨?_, (Option.guard_eq_some' _).mp hname, fun c hc => List.mem_takeWhile_imp hc,
      (Option.guard_eq_some' _).mp hbody⟩
    rw [dropLead?_eq_some_iff.mp hopen, ← hinner, List.takeWhile_append_dropWhile]
    rfl
  · rintro ⟨rfl, nonempty, chars, hbody⟩
    have hstop : isNameChar '~' = false := by decide
    have htake := takeWhile_append_cons (']' :: ':' :: body) chars hstop
    have hdrop := dropWhile_append_cons (']' :: ':' :: body) chars hstop
    have hopen : dropLead? "[^~".toList ('[' :: '^' :: '~' :: (name ++ '~' :: ']' :: ':' :: body)) =
        some (name ++ '~' :: ']' :: ':' :: body) := by simp
    have hclose : dropLead? "~]:".toList ('~' :: ']' :: ':' :: body) = some body := by simp
    simp only [shape?, hopen, Option.bind_eq_bind, Option.bind_some, htake, hdrop, hclose]
    simp [nonempty, hbody]

/-- The opening of a marker does not start within the name of a footnote: its tilde would end the name
    and be followed by a bracket. -/
theorem not_opening_in_name {c : Char} (hc : c ≠ ']') {left tail name body rest : Text}
    (chars : ∀ x ∈ name, isNameChar x = true)
    (hlead : '[' :: '^' :: '~' :: (name ++ ['~', ']', ':']) = left ++ '`' :: tail)
    (hrest : '~' :: c :: rest = tail ++ body) : False := by
  have hlead' : ('[' :: '^' :: '~' :: name) ++ ['~', ']', ':'] = left ++ '`' :: tail := by
    simpa using hlead
  rcases List.append_eq_append_iff.mp hlead' with ⟨inner, -, hclose⟩ | ⟨inner, hname, hclose⟩
  · have hmem : '`' ∈ ['~', ']', ':'] := by rw [hclose]; simp
    exact absurd hmem (by decide)
  · match inner with
    | [] => simp at hclose
    | [b] =>
        simp only [List.cons_append, List.nil_append, List.cons.injEq] at hclose
        rw [hclose.2] at hrest
        simp only [List.cons_append, List.cons.injEq] at hrest
        exact hc hrest.2.1
    | b :: d :: inner =>
        simp only [List.cons_append, List.cons.injEq] at hclose
        obtain ⟨rfl, rfl⟩ := hclose
        obtain ⟨rfl, -⟩ := List.cons.inj hrest
        have hmem : '~' ∈ name := by
          match left with
          | [] => simp at hname
          | [a] => simp at hname
          | [a, a'] => simp at hname
          | a :: a' :: a'' :: left =>
              simp only [List.cons_append, List.cons.injEq] at hname
              rw [hname.2.2.2]
              simp
        exact absurd (chars _ hmem) (by decide)

/-- A line is shaped like a footnote or not, however a marker in it goes on after its opening. -/
theorem isFootnoteLine_append_opening {c : Char} (hc : c ≠ ']') (left : Text) {rest rest' : Text}
    (feed : '\n' ∈ rest → '\n' ∈ rest')
    (h : isFootnoteLine (left ++ Marker.opening c ++ rest') = true) :
    isFootnoteLine (left ++ Marker.opening c ++ rest) = true := by
  obtain ⟨⟨name, body⟩, hshape⟩ := Option.isSome_iff_exists.mp h
  obtain ⟨htext, nonempty, chars, hbody⟩ := shape?_eq_some_iff.mp hshape
  have hsplit : left ++ '`' :: '~' :: c :: rest' =
      ('[' :: '^' :: '~' :: (name ++ ['~', ']', ':'])) ++ body := by
    simpa [Marker.opening] using htext
  have hafter : ∀ tail, left = '[' :: '^' :: '~' :: (name ++ ['~', ']', ':']) ++ tail →
      body = tail ++ '`' :: '~' :: c :: rest' →
      isFootnoteLine (left ++ Marker.opening c ++ rest) = true := by
    rintro tail rfl rfl
    refine Option.isSome_iff_exists.mpr ⟨(name, tail ++ '`' :: '~' :: c :: rest), ?_⟩
    refine shape?_eq_some_iff.mpr ⟨by simp [Marker.opening], nonempty, chars, ?_⟩
    intro hfeed
    simp only [List.mem_append, List.mem_cons] at hfeed hbody
    tauto
  rcases List.append_eq_append_iff.mp hsplit with ⟨tail, hlead, hrest⟩ | ⟨tail, hleft, hbody'⟩
  · cases tail with
    | nil => exact hafter [] (by simpa using hlead.symm) (by simpa using hrest.symm)
    | cons b tail =>
        simp only [List.cons_append, List.cons.injEq] at hrest
        obtain ⟨rfl, hrest⟩ := hrest
        exact (not_opening_in_name hc chars hlead hrest).elim
  · exact hafter tail hleft hbody'

/-! ### Rendered footnotes -/

theorem isNameChar_of_mem (name : Identifier) {c : Char} (hc : c ∈ name.text) :
    isNameChar c = true := by
  have htilde : c ≠ '~' := fun heq => name.not_mem_text (c := '~') (by decide) (heq ▸ hc)
  have hbracket : c ≠ ']' := fun heq => name.not_mem_text (c := ']') (by decide) (heq ▸ hc)
  simp [isNameChar, htilde, hbracket]

/-- A hint between backticks after a space is read back. -/
theorem readHint?_quoted {hint : Text} (plain : '`' ∉ hint) (tail : Text) :
    readHint? (' ' :: '`' :: (hint ++ '`' :: tail)) = some (hint, tail) := by
  have hspace : isBlankChar ' ' = true := by decide
  have hback : isBlankChar '`' = false := by decide
  have hother : ∀ x ∈ hint, (x != '`') = true := by
    intro x hx
    simpa using fun heq : x = '`' => plain (heq ▸ hx)
  have hstop : ('`' != '`') = false := by decide
  have htake := takeWhile_append_cons (p := (· != '`')) tail hother hstop
  have hdrop := dropWhile_append_cons (p := (· != '`')) tail hother hstop
  simp [readHint?, trimStart, hspace, hback, cut?, htake, hdrop]

theorem not_mem_escape {label : Text} (h : '\n' ∉ label) : '\n' ∉ Coverer.escape label := by
  induction label with
  | nil => simp [Coverer.escape]
  | cons c cs ih =>
      simp only [List.mem_cons, not_or] at h
      rw [Coverer.escape]
      split
      · simp [h.1, ih h.2]
      · simp [h.1, ih h.2]

theorem not_mem_renderList {cs : List Coverer} (linkable : ∀ c ∈ cs, c.Linkable) :
    '\n' ∉ Coverer.renderList cs := by
  have hlink : ∀ c ∈ cs, '\n' ∉ Coverer.render c := by
    intro c hc
    have hlabel := not_mem_escape (linkable c hc).label
    have hurl : '\n' ∉ c.url := fun hmem => absurd ((linkable c hc).url _ hmem) (by decide)
    simp [Coverer.render, hlabel, hurl]
  clear linkable
  induction cs with
  | nil => simp [Coverer.renderList, join]
  | cons c cs ih =>
      have hfirst := hlink c List.mem_cons_self
      have hrest := ih fun c hc => hlink c (List.mem_cons_of_mem _ hc)
      cases cs with
      | nil => simpa [Coverer.renderList, join] using hfirst
      | cons c' cs =>
          rw [Coverer.renderList_cons_cons]
          simp [hfirst, hrest]

theorem not_mem_render (name : Identifier) {hint : Text} (hfeed : '\n' ∉ hint) {cs : List Coverer}
    (linkable : ∀ c ∈ cs, c.Linkable) : '\n' ∉ render name hint cs := by
  have hname : '\n' ∉ name.text := name.not_mem_text (by decide)
  have hlist := not_mem_renderList linkable
  unfold render
  split
  · simp [hname, hfeed]
  · simp [hname, hfeed, hlist]

theorem shape?_render (name : Identifier) {hint : Text} (hfeed : '\n' ∉ hint) {cs : List Coverer}
    (linkable : ∀ c ∈ cs, c.Linkable) :
    shape? (render name hint cs) = some (name.text, ' ' :: '`' :: (hint ++ '`' ::
      (if cs.isEmpty then [] else ' ' :: Coverer.renderList cs))) := by
  have hlist := not_mem_renderList linkable
  generalize htail : (if cs.isEmpty then [] else ' ' :: Coverer.renderList cs) = tail
  have hplain : '\n' ∉ tail := by
    rw [← htail]
    split
    · simp
    · simp [hlist]
  have htext : render name hint cs =
      '[' :: '^' :: '~' :: (name.text ++ '~' :: ']' :: ':' :: ' ' :: '`' :: (hint ++ '`' :: tail)) := by
    unfold render
    rw [htail]
    simp
  apply shape?_eq_some_iff.mpr
  exact ⟨htext, name.text_ne_nil, fun c hc => isNameChar_of_mem name hc, by simp [hfeed, hplain]⟩

theorem dropWhileEnd_render (name : Identifier) (hint : Text) (cs : List Coverer) :
    dropWhileEnd (· == '\r') (render name hint cs) = render name hint cs := by
  unfold render
  cases cs with
  | nil => simp [dropWhileEnd]
  | cons c cs =>
      obtain ⟨rest, hrest⟩ := Coverer.exists_renderList_eq_append c cs
      simp [dropWhileEnd, hrest]

/-- A rendered footnote is read back with its hint and all its links, and keeps its spelling. -/
theorem ofLine?_render (line : Nat) (name : Identifier) {hint : Text} (plain : '`' ∉ hint)
    (hfeed : '\n' ∉ hint) {cs : List Coverer} (linkable : ∀ c ∈ cs, c.Linkable) :
    ofLine? line (render name hint cs) =
      some (.ok { name, line, hint, coverers := cs, raw := render name hint cs }) := by
  have hshape := shape?_render name hfeed linkable
  have hhint := readHint?_quoted plain (if cs.isEmpty then [] else ' ' :: Coverer.renderList cs)
  have hlist := Coverer.parseList?_renderList fun c hc => (linkable c hc).url
  simp only [ofLine?, hshape, Option.bind_eq_bind, Option.bind_some, Identifier.parse?_text, hhint,
    hlist, dropWhileEnd_render]
  rfl

end Footnote

/-! ### What is read -/

namespace Coverer

/-- Reading a label takes its characters from the text. -/
theorem subset_of_readLabel? {t label rest : Text} (h : readLabel? t = some (label, rest)) :
    label ⊆ t ∧ rest ⊆ t := by
  fun_induction readLabel? t generalizing label rest with
  | case1 => cases h
  | case2 rest' =>
      cases h
      exact ⟨List.nil_subset _, List.subset_cons_self _ _⟩
  | case3 => cases h
  | case4 => cases h
  | case5 c rest' hc ih =>
      obtain ⟨⟨label', rest''⟩, hread, heq⟩ := Option.map_eq_some_iff.mp h
      cases heq
      obtain ⟨hlabel, hrest⟩ := ih hread
      exact ⟨fun x hx => List.mem_cons_of_mem _ (List.cons_subset_cons c hlabel hx),
        fun x hx => List.mem_cons_of_mem _ (List.mem_cons_of_mem _ (hrest hx))⟩
  | case6 c rest' hclose hback hpair ih =>
      obtain ⟨⟨label', rest''⟩, hread, heq⟩ := Option.map_eq_some_iff.mp h
      cases heq
      obtain ⟨hlabel, hrest⟩ := ih hread
      exact ⟨List.cons_subset_cons c hlabel, fun x hx => List.mem_cons_of_mem _ (hrest hx)⟩

theorem linkable_of_read? {t rest : Text} {c : Coverer} (hfeed : '\n' ∉ t)
    (h : read? t = some (c, rest)) : c.Linkable ∧ rest ⊆ t := by
  simp only [read?, Option.bind_eq_bind, Option.bind_eq_some_iff] at h
  obtain ⟨inner, hopen, ⟨label, afterLabel⟩, hlabel, target, hparen, _, hclose, heq⟩ := h
  cases heq
  obtain ⟨hlabel, hafter⟩ := subset_of_readLabel? hlabel
  have hopen : t = ['['] ++ inner := dropLead?_eq_some_iff.mp hopen
  have hparen : afterLabel = ['('] ++ target := dropLead?_eq_some_iff.mp hparen
  have hclose : target.dropWhile isUrlChar = [')'] ++ rest := dropLead?_eq_some_iff.mp hclose
  have hinner : inner ⊆ t := by
    rw [hopen]
    exact List.subset_append_right _ _
  have htarget : target ⊆ afterLabel := by
    rw [hparen]
    exact List.subset_append_right _ _
  have hrest : rest ⊆ target := by
    refine List.Subset.trans ?_ (List.dropWhile_suffix isUrlChar).subset
    rw [hclose]
    exact List.subset_append_right _ _
  refine ⟨⟨fun hmem => hfeed (hinner (hlabel hmem)), fun x hx => List.mem_takeWhile_imp hx⟩, fun x hx => ?_⟩
  exact hinner (hafter (htarget (hrest hx)))

/-- Links that are read from a text without line feed are links that can stand in a line. -/
theorem linkable_of_readList? {fuel : Nat} {t : Text} {cs : List Coverer} (hfeed : '\n' ∉ t)
    (h : readList? fuel t = some cs) : ∀ c ∈ cs, c.Linkable := by
  induction fuel generalizing t cs with
  | zero => cases h
  | succ fuel ih =>
      obtain ⟨c, rest, hread, hmore⟩ := readList?_succ_eq_some_iff.mp h
      obtain ⟨hfirst, hrest⟩ := linkable_of_read? hfeed hread
      have htrim : ∀ {s : Text}, s ⊆ t → trimStart s ⊆ t := fun hs =>
        List.Subset.trans (List.dropWhile_suffix isBlankChar).subset hs
      rcases hmore with ⟨-, rfl⟩ | ⟨rest', others, hcomma, hothers, rfl⟩
      · simpa using hfirst
      · have hrest' : rest' ⊆ t := fun x hx =>
          htrim hrest (by rw [hcomma]; exact List.mem_cons_of_mem _ hx)
        have hfeed' : '\n' ∉ trimStart rest' := fun hmem => hfeed (htrim hrest' hmem)
        intro c' hc'
        rcases List.mem_cons.mp hc' with rfl | hc'
        · exact hfirst
        · exact ih hfeed' hothers c' hc'

theorem linkable_of_parseList? {t : Text} {cs : List Coverer} (hfeed : '\n' ∉ t)
    (h : parseList? t = some cs) : ∀ c ∈ cs, c.Linkable := by
  have htrim : trim t ⊆ t := by
    intro x hx
    have hend := (List.dropWhile_suffix isBlankChar).subset (List.mem_reverse.mp hx)
    exact (List.dropWhile_suffix isBlankChar).subset (List.mem_reverse.mp hend)
  unfold parseList? at h
  split at h
  · cases h
    simp
  · exact linkable_of_readList? (fun hmem => hfeed (htrim hmem)) h

end Coverer

namespace Footnote

/-- A hint is read from between two backticks, with blanks at most before them. -/
theorem exists_of_readHint? {body hint rest : Text} (h : readHint? body = some (hint, rest)) :
    '`' ∉ hint ∧ ∃ blanks, body = blanks ++ '`' :: (hint ++ '`' :: rest) := by
  obtain ⟨inner, hopen, hcut⟩ := Option.bind_eq_some_iff.mp h
  obtain ⟨hinner, plain⟩ := cut?_eq_some_iff.mp hcut
  have hstart : trimStart body = '`' :: inner := dropLead?_eq_some_iff.mp hopen
  have hbody := List.takeWhile_append_dropWhile (p := isBlankChar) (l := body)
  rw [← trimStart, hstart, hinner] at hbody
  exact ⟨plain, _, hbody.symm⟩

/-- A line is a well-formed footnote if its name is an identifier, a hint opens its body, and nothing but
    links follows the hint. -/
theorem ofLine?_eq_ok_iff {line : Nat} {t : Text} {f : Footnote} :
    ofLine? line t = some (.ok f) ↔
      f.line = line ∧ f.raw = dropWhileEnd (· == '\r') t ∧
        ∃ body rest, shape? t = some (f.name.text, body) ∧ readHint? body = some (f.hint, rest) ∧
          Coverer.parseList? rest = some f.coverers := by
  constructor
  · intro h
    obtain ⟨⟨nameText, body⟩, hshape, hread⟩ := Option.bind_eq_some_iff.mp h
    simp only [Option.pure_def, Option.some.injEq] at hread
    split at hread
    · cases hread
    · rename_i name hname
      split at hread
      · cases hread
      · rename_i hint rest hhint
        split at hread
        · cases hread
        · rename_i coverers hlist
          cases hread
          rw [← Identifier.parse?_eq_some_iff.mp hname] at hshape
          exact ⟨rfl, rfl, body, rest, hshape, hhint, hlist⟩
  · intro h
    obtain ⟨rfl, hraw, body, rest, hshape, hhint, hlist⟩ := h
    simp only [ofLine?, hshape, Option.bind_eq_bind, Option.bind_some, Identifier.parse?_text, hhint,
      hlist, ← hraw]
    rfl

/-- All links of a footnote that is read are links that can stand in a line. -/
theorem linkable_of_ofLine? {line : Nat} {t : Text} {f : Footnote} (h : ofLine? line t = some (.ok f)) :
    ∀ c ∈ f.coverers, c.Linkable := by
  obtain ⟨-, -, body, rest, hshape, hhint, hlist⟩ := ofLine?_eq_ok_iff.mp h
  obtain ⟨-, -, -, hfeed⟩ := shape?_eq_some_iff.mp hshape
  obtain ⟨-, blanks, hbody⟩ := exists_of_readHint? hhint
  apply Coverer.linkable_of_parseList? _ hlist
  intro hmem
  apply hfeed
  rw [hbody]
  simp [hmem]

/-- A rendered footnote is read back exactly if all its links can stand in a line. -/
theorem ofLine?_render_iff (line : Nat) (name : Identifier) {hint : Text} (plain : '`' ∉ hint)
    (hfeed : '\n' ∉ hint) (cs : List Coverer) :
    ofLine? line (render name hint cs) =
        some (.ok { name, line, hint, coverers := cs, raw := render name hint cs }) ↔
      ∀ c ∈ cs, c.Linkable :=
  ⟨fun h => linkable_of_ofLine? h, fun linkable => ofLine?_render line name plain hfeed linkable⟩

/-! ### Rendering and reading -/

/-- What a footnote line can say: its hint ends at the first backtick, and neither the hint nor a link goes
    over the end of the line. -/
structure Writable (hint : Text) (coverers : List Coverer) : Prop where
  quoted : '`' ∉ hint
  oneLine : '\n' ∉ hint
  links : ∀ c ∈ coverers, c.Linkable

instance (hint : Text) (coverers : List Coverer) : Decidable (Writable hint coverers) :=
  decidable_of_iff ('`' ∉ hint ∧ '\n' ∉ hint ∧ ∀ c ∈ coverers, c.Linkable)
    ⟨fun h => ⟨h.1, h.2.1, h.2.2⟩, fun h => ⟨h.quoted, h.oneLine, h.links⟩⟩

/-- Only what a footnote line can say is read from one. -/
theorem writable_of_ofLine? {line : Nat} {t : Text} {f : Footnote} (h : ofLine? line t = some (.ok f)) :
    Writable f.hint f.coverers := by
  obtain ⟨-, -, body, rest, hshape, hhint, -⟩ := ofLine?_eq_ok_iff.mp h
  obtain ⟨-, -, -, hfeed⟩ := shape?_eq_some_iff.mp hshape
  obtain ⟨quoted, blanks, hbody⟩ := exists_of_readHint? hhint
  refine ⟨quoted, fun hmem => hfeed ?_, linkable_of_ofLine? h⟩
  rw [hbody]
  simp [hmem]

/-- Rendering and reading are inverse on what a footnote line can say: whatever is written is read back with
    its name, hint and links in order, and whatever is read from some line, however that line is spelled,
    can be written so that it is read back. -/
theorem ofLine?_inverse_render :
    (∀ (line : Nat) (name : Identifier) (hint : Text) (cs : List Coverer), Writable hint cs →
      ofLine? line (render name hint cs) =
        some (.ok { name, line, hint, coverers := cs, raw := render name hint cs })) ∧
    ∀ (line : Nat) (t : Text) (f : Footnote), ofLine? line t = some (.ok f) →
      Writable f.hint f.coverers ∧
        ∀ line', ofLine? line' (render f.name f.hint f.coverers) =
          some (.ok { f with line := line', raw := render f.name f.hint f.coverers }) := by
  have hwritten : ∀ (line : Nat) (name : Identifier) (hint : Text) (cs : List Coverer),
      Writable hint cs → ofLine? line (render name hint cs) =
        some (.ok { name, line, hint, coverers := cs, raw := render name hint cs }) :=
    fun line name _ _ writable =>
      ofLine?_render line name writable.quoted writable.oneLine writable.links
  constructor
  · exact hwritten
  · intro line t f h
    have hwritable := writable_of_ofLine? h
    exact ⟨hwritable, fun line' => hwritten line' f.name f.hint f.coverers hwritable⟩

/-- Labels with all that could end, nest or part links: brackets, backslashes, commas and parentheses, and
    blanks at their ends. A line with other blanks and a needless backslash is read and written anew. -/
theorem ofLine?_inverse_render_awkward :
    let name : Identifier := ⟨['A'], by decide⟩
    let hint : Text := "h ~]:".toList
    let links : List Coverer :=
      [⟨" a](b), [c](d) \\".toList, "u(v,[w]".toList⟩, ⟨[], []⟩, ⟨"\\]\\[,\t".toList, "`x".toList⟩]
    let spelled : Text := "[^~A~]:`h`  [x\\-y](u) ,[z](w) \r".toList
    let found : Footnote :=
      ⟨name, 3, ['h'], [⟨"x-y".toList, ['u']⟩, ⟨['z'], ['w']⟩], "[^~A~]:`h`  [x\\-y](u) ,[z](w) ".toList⟩
    (Writable hint links ∧ ofLine? 7 (render name hint links) =
        some (.ok ⟨name, 7, hint, links, render name hint links⟩)) ∧
      ofLine? 3 spelled = some (.ok found) ∧
        ofLine? 9 (render name ['h'] found.coverers) =
          some (.ok { found with line := 9, raw := render name ['h'] found.coverers }) := by
  intro name hint links spelled found
  have hwritable : Writable hint links := by decide
  have hfound : ofLine? 3 spelled = some (.ok found) := by decide
  exact ⟨⟨hwritable, ofLine?_inverse_render.1 7 name hint links hwritable⟩, hfound,
    (ofLine?_inverse_render.2 3 spelled found hfound).2 9⟩

end Footnote

end ReqTrace
