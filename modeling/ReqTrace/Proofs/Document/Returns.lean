/-
Module: ReqTrace.Proofs.Document.Returns
Purpose: Carriage returns at the end of a line say nothing. No part of a document reads otherwise
  without them.
Main exports: Text.dropReturns, Text.apply_dropReturns, Site.ofLine_append_return,
  Footnote.ofLine?_append_return, BodyLine.read_dropReturns
-/
import Mathlib.Data.List.Induction
import ReqTrace.Document
import ReqTrace.Proofs.Document.Marker

namespace ReqTrace

namespace Text

/-! ### Returns at the end of a text -/

/-- A line without the carriage returns at its end. -/
def dropReturns (t : Text) : Text :=
  dropWhileEnd (· == '\r') t

@[simp] theorem dropReturns_append_return (t : Text) : dropReturns (t ++ ['\r']) = dropReturns t := by
  simp [dropReturns, dropWhileEnd]

theorem dropReturns_append_other (t : Text) {c : Char} (hc : c ≠ '\r') :
    dropReturns (t ++ [c]) = t ++ [c] := by
  simp [dropReturns, dropWhileEnd, hc]

/-- What a carriage return at the end does not change is not changed by any number of them. -/
theorem apply_dropReturns {α : Type} {f : Text → α} (same : ∀ t, f (t ++ ['\r']) = f t) (t : Text) :
    f (dropReturns t) = f t := by
  induction t using List.reverseRecOn with
  | nil => rfl
  | append_singleton t c ih =>
      by_cases hc : c = '\r'
      · rw [hc, dropReturns_append_return, ih, same]
      · rw [dropReturns_append_other t hc]

/-- A line that ends with a return loses one, and any other line is kept. -/
theorem dropReturn_cases (line : Text) :
    dropReturn line = line ∧ line.getLast? ≠ some '\r' ∨ dropReturn line ++ ['\r'] = line := by
  rw [dropReturn]
  cases htail : dropTail? ['\r'] line with
  | none =>
      refine .inl ⟨rfl, fun hlast => ?_⟩
      obtain ⟨rest, hrest⟩ := List.getLast?_eq_some_iff.mp hlast
      rw [dropTail?_eq_some_iff.mpr hrest] at htail
      cases htail
  | some rest => exact .inr (dropTail?_eq_some_iff.mp htail).symm

/-- A line break takes at most one carriage return away. -/
theorem eq_dropReturn_or (t : Text) : t = dropReturn t ∨ t = dropReturn t ++ ['\r'] :=
  (dropReturn_cases t).imp (fun h => h.1.symm) Eq.symm

theorem dropReturn_eq_self_iff {line : Text} : dropReturn line = line ↔ line.getLast? ≠ some '\r' := by
  rcases dropReturn_cases line with ⟨hkept, hlast⟩ | hlost
  · exact iff_of_true hkept hlast
  · refine iff_of_false (fun heq => ?_) fun hlast => hlast ?_
    · rw [heq] at hlost
      simp at hlost
    · rw [← hlost]
      simp

theorem dropReturn_append_eq_self_iff {line : Text} :
    dropReturn line ++ ['\r'] = line ↔ line.getLast? = some '\r' := by
  rcases dropReturn_cases line with ⟨hkept, hlast⟩ | hlost
  · rw [hkept]
    exact iff_of_false (by simp) hlast
  · refine iff_of_true hlost ?_
    rw [← hlost]
    simp

theorem plain_dropReturn {line : Text} (plain : '\n' ∉ line) : '\n' ∉ dropReturn line := by
  rcases eq_dropReturn_or line with heq | heq
  · rwa [← heq]
  · rw [heq] at plain
    exact fun hmem => plain (List.mem_append_left _ hmem)

@[simp] theorem dropReturns_dropReturn (t : Text) : dropReturns (dropReturn t) = dropReturns t := by
  rcases eq_dropReturn_or t with h | h
  · rw [← h]
  · rw [h, dropReturns_append_return, ← h]

/-! ### Reading before a return -/

theorem dropLead?_append_return {lead : Text} (plain : '\r' ∉ lead) (t : Text) :
    dropLead? lead (t ++ ['\r']) = (dropLead? lead t).map (· ++ ['\r']) := by
  induction lead generalizing t with
  | nil => simp
  | cons c lead ih =>
      simp only [List.mem_cons, not_or] at plain
      cases t with
      | nil => simp [Ne.symm plain.1]
      | cons c' t =>
          by_cases hc : c = c'
          · simp [hc, ih plain.2]
          · simp [hc]

/-- A part that ends with other characters than carriage returns ends before the last one. -/
theorem dropLead?_dropWhile_append_return {p : Char → Bool} (inside : p '\r' = true) {lead : Text}
    (plain : '\r' ∉ lead) (nonempty : lead ≠ []) (t : Text) :
    dropLead? lead ((t ++ ['\r']).dropWhile p) =
      (dropLead? lead (t.dropWhile p)).map (· ++ ['\r']) := by
  induction t with
  | nil =>
      obtain ⟨c, lead, rfl⟩ := List.exists_cons_of_ne_nil nonempty
      simp [inside]
  | cons c t ih =>
      by_cases hc : p c = true
      · simpa [hc] using ih
      · simpa [hc] using dropLead?_append_return plain (c :: t)

theorem takeWhile_append_return {p : Char → Bool} {lead t rest : Text} (nonempty : lead ≠ [])
    (h : dropLead? lead (t.dropWhile p) = some rest) :
    (t ++ ['\r']).takeWhile p = t.takeWhile p := by
  refine takeWhile_append_of_dropWhile_ne_nil ?_ _
  rw [dropLead?_eq_some_iff.mp h]
  simp [nonempty]

theorem trim_append_return (t : Text) : trim (t ++ ['\r']) = trim t :=
  trim_append_blank (by decide) t

end Text

open Text

/-! ### Sites -/

namespace Marker

/-- A reader that reads the same before a carriage return at the end. -/
def IgnoresReturn {α : Type} (read? : Text → Option (α × Text)) : Prop :=
  ∀ t, read? (t ++ ['\r']) = (read? t).map fun found => (found.1, found.2 ++ ['\r'])

theorem readHead?_ignoresReturn : IgnoresReturn readHead? := by
  intro t
  have hopen := dropLead?_append_return (by decide : '\r' ∉ "`~".toList) t
  simp only [readHead?, hopen]
  cases dropLead? "`~".toList t with
  | none => rfl
  | some inner =>
      have hclose := dropLead?_dropWhile_append_return (by decide : isNameChar '\r' = true)
        (by decide : '\r' ∉ "~`".toList) (by decide) inner
      simp only [Option.map_some, Option.bind_eq_bind, Option.bind_some, hclose]
      cases hread : dropLead? "~`".toList (inner.dropWhile isNameChar) with
      | none => simp
      | some rest =>
          rw [takeWhile_append_return (by decide) hread]
          simp only [guard]
          split
          · rfl
          · rfl

theorem readReference?_ignoresReturn : IgnoresReturn readReference? := by
  intro t
  have hopen := dropLead?_append_return (by decide : '\r' ∉ "[^~".toList) t
  simp only [readReference?, hopen]
  cases dropLead? "[^~".toList t with
  | none => rfl
  | some inner =>
      have hclose := dropLead?_dropWhile_append_return (by decide : isReferenceChar '\r' = true)
        (by decide : '\r' ∉ "~]".toList) (by decide) inner
      simp only [Option.map_some, Option.bind_eq_bind, Option.bind_some, hclose]
      cases hread : dropLead? "~]".toList (inner.dropWhile isReferenceChar) with
      | none => rfl
      | some rest =>
          rw [takeWhile_append_return (by decide) hread]
          rfl

theorem readGlyph?_ignoresReturn : IgnoresReturn Glyph.read? := by
  intro t
  cases t with
  | nil => decide
  | cons c t =>
      simp only [List.cons_append, Glyph.read?]
      split
      · rfl
      · split
        · rfl
        · rfl

theorem optional_append_return {α : Type} {read? : Text → Option (α × Text)}
    (ignores : IgnoresReturn read?) (t : Text) :
    optional read? (t ++ ['\r']) = ((optional read? t).1, (optional read? t).2 ++ ['\r']) := by
  unfold optional
  rw [ignores]
  cases read? t with
  | none => rfl
  | some found => rfl

theorem read?_append_return (t : Text) : read? (t ++ ['\r']) = read? t := by
  have hstop : Char.isAlpha '\r' = false := by decide
  rw [read?, read?, readPrefix?_eq, readPrefix?_eq, readHead?_ignoresReturn]
  cases readHead? t with
  | none => rfl
  | some found =>
      have hglued : (readGlued found.1 (found.2 ++ ['\r'])).1 = (readGlued found.1 found.2).1 := by
        simp only [readGlued, takeWhile_append_stop _ _ _ hstop, dropWhile_append_stop _ _ _ hstop,
          optional_append_return readReference?_ignoresReturn,
          optional_append_return readGlyph?_ignoresReturn]
      simp only [Option.map_some, Option.bind_eq_bind, Option.bind_some, hglued]

end Marker

theorem Site.ofLine_append_return (line : Nat) (t : Text) : ofLine line (t ++ ['\r']) = ofLine line t := by
  have hsearch : ∀ skip position, occurrencesFrom Marker.read? skip position (t ++ ['\r']) =
      occurrencesFrom Marker.read? skip position t := by
    induction t with
    | nil =>
        have hnone : Marker.read? ['\r'] = none := by decide
        intro skip position
        cases skip <;> simp [occurrencesFrom, hnone]
    | cons c t ih =>
        intro skip position
        have hread := Marker.read?_append_return (c :: t)
        rw [List.cons_append] at hread ⊢
        cases skip with
        | zero => simp only [occurrencesFrom, hread, ih]
        | succ skip => simp only [occurrencesFrom, ih]
  simp only [ofLine, occurrences, hsearch]

/-! ### Footnotes -/

namespace Footnote

theorem shape?_append_return (t : Text) :
    shape? (t ++ ['\r']) = (shape? t).map fun found => (found.1, found.2 ++ ['\r']) := by
  have hopen := dropLead?_append_return (by decide : '\r' ∉ "[^~".toList) t
  simp only [shape?, hopen]
  cases dropLead? "[^~".toList t with
  | none => rfl
  | some inner =>
      have hclose := dropLead?_dropWhile_append_return (by decide : isNameChar '\r' = true)
        (by decide : '\r' ∉ "~]:".toList) (by decide) inner
      simp only [Option.map_some, Option.bind_eq_bind, Option.bind_some, hclose]
      cases hread : dropLead? "~]:".toList (inner.dropWhile isNameChar) with
      | none => simp
      | some body =>
          rw [takeWhile_append_return (by decide) hread]
          have hguard : '\n' ∉ body ++ ['\r'] ↔ '\n' ∉ body := by simp
          simp only [guard, hguard, Option.map_some, Option.bind_some]
          split
          · split
            · rfl
            · rfl
          · rfl

theorem readHint?_append_return (body : Text) :
    readHint? (body ++ ['\r']) = (readHint? body).map fun found => (found.1, found.2 ++ ['\r']) := by
  have hopen := dropLead?_dropWhile_append_return (by decide : isBlankChar '\r' = true)
    (by decide : '\r' ∉ ['`']) (by decide) body
  simp only [readHint?, trimStart, hopen]
  cases dropLead? ['`'] (body.dropWhile isBlankChar) with
  | none => rfl
  | some inner =>
      simp only [Option.map_some, Option.bind_eq_bind, Option.bind_some, cut?]
      cases hdrop : inner.dropWhile (· != '`') with
      | nil =>
          have hdrop' : (inner ++ ['\r']).dropWhile (· != '`') = [] := by
            rw [List.dropWhile_append, hdrop]
            decide
          rw [hdrop']
          rfl
      | cons c rest =>
          have hdrop' : (inner ++ ['\r']).dropWhile (· != '`') = c :: (rest ++ ['\r']) := by
            rw [List.dropWhile_append, hdrop]
            rfl
          have htake := takeWhile_append_of_dropWhile_ne_nil (by rw [hdrop]; simp) ['\r']
          rw [hdrop', htake]
          rfl

theorem ofLine?_append_return (line : Nat) (t : Text) : ofLine? line (t ++ ['\r']) = ofLine? line t := by
  simp only [ofLine?, shape?_append_return]
  cases shape? t with
  | none => rfl
  | some found =>
      have hraw := dropReturns_append_return t
      simp only [dropReturns] at hraw
      simp only [Option.map_some, Option.bind_eq_bind, Option.bind_some, hraw, readHint?_append_return]
      cases readHint? found.2 with
      | none => rfl
      | some hint =>
          have hlist : Coverer.parseList? (hint.2 ++ ['\r']) = Coverer.parseList? hint.2 := by
            rw [Coverer.parseList?, Coverer.parseList?, trim_append_return]
          simp only [Option.map_some, hlist]

end Footnote

/-! ### Lines of documents -/

theorem BodyLine.read_dropReturns (line : Nat) (t : Text) : read line (dropReturns t) = read line t := by
  refine apply_dropReturns (fun t => ?_) t
  rw [read, read, Footnote.ofLine?_append_return, Site.ofLine_append_return]

theorem Text.isBlank_dropReturns (t : Text) : isBlank (dropReturns t) = isBlank t := by
  have hreturn : isBlankChar '\r' = true := by decide
  exact apply_dropReturns (fun t => by simp [isBlank, hreturn]) t

theorem Text.trim_dropReturns (t : Text) : trim (dropReturns t) = trim t :=
  apply_dropReturns trim_append_return t

theorem Header.isFence_dropReturns (t : Text) : isFence (dropReturns t) = isFence t := by
  refine apply_dropReturns (fun t => ?_) t
  have hfence := dropLead?_dropWhile_append_return (by decide : isBlankChar '\r' = true)
    (by decide : '\r' ∉ fence) (by decide) t
  rw [isFence, isFence, ← isSome_dropLead?, ← isSome_dropLead?, trimStart, trimStart, hfence,
    Option.isSome_map]

/-- The header of a document does not depend on the carriage returns at the ends of its lines. -/
theorem Header.ofLines_map_dropReturns (lines : List Text) :
    ofLines (lines.map dropReturns) = ofLines lines := by
  have hstart : ((lines.map dropReturns).takeWhile isBlank).length =
      (lines.takeWhile isBlank).length := by
    rw [List.takeWhile_map, List.length_map]
    exact congrArg List.length (congrArg (List.takeWhile · lines) (funext isBlank_dropReturns))
  simp only [ofLines, hstart, ← List.map_drop]
  match lines.drop (lines.takeWhile isBlank).length with
  | [] => rfl
  | [_] => rfl
  | [_, _] => rfl
  | opening :: inner :: closing :: _ =>
      simp only [List.map_cons, isFence_dropReturns, trim_dropReturns]

/-- What a document says does not depend on the carriage returns at the ends of its lines. -/
theorem ParsedDocument.ofLines_map_dropReturns (lines : List Text) :
    ofLines (lines.map dropReturns) = ofLines lines := by
  have hbody : bodyOf (Header.ofLines lines) (lines.map dropReturns) =
      bodyOf (Header.ofLines lines) lines := by
    rw [bodyOf, bodyOf, ← List.map_drop, List.zipIdx_map, List.map_map]
    refine List.map_congr_left fun entry _ => ?_
    exact congrArg (Prod.mk entry.2) (BodyLine.read_dropReturns entry.2 entry.1)
  simp only [ofLines, Header.ofLines_map_dropReturns, hbody]

end ReqTrace
