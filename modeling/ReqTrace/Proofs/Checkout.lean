/-
Module: ReqTrace.Proofs.Checkout
Purpose: What a checkout answers. Its table is read from the listing of its index, in which paths may hold blanks and
  line feeds and may come up several times, and it is asked about files by any path that leads below its root.
Main exports: IndexEntry, Checkout.listing, Checkout.readIndex_listing, Checkout.get?_readIndex_iff,
  Repository.hash?_eq_some_iff, Checkout.hash?_of_index
-/
import ReqTrace.Checkout.Transcript
import ReqTrace.Proofs.Components
import ReqTrace.Proofs.FileTree
import ReqTrace.Proofs.Path
import ReqTrace.Proofs.Table
import ReqTrace.Proofs.Text.Occurrences

namespace ReqTrace

open Text

/-! ### The listing of an index -/

/-- A field of an entry ends before a space, a tab or a zero character. -/
structure IsIndexField (field : Text) : Prop where
  noSpace : ' ' ∉ field
  noTab : '\t' ∉ field
  noZero : '\x00' ∉ field

instance (field : Text) : Decidable (IsIndexField field) :=
  decidable_of_iff (' ' ∉ field ∧ '\t' ∉ field ∧ '\x00' ∉ field)
    ⟨fun ⟨h₁, h₂, h₃⟩ => ⟨h₁, h₂, h₃⟩, fun ⟨h₁, h₂, h₃⟩ => ⟨h₁, h₂, h₃⟩⟩

/-- An entry of the index of a checkout. -/
structure IndexEntry where
  mode : Text
  hash : Text
  stage : Text
  path : Text
  mode_field : IsIndexField mode
  hash_field : IsIndexField hash
  stage_field : IsIndexField stage
  path_noZero : '\x00' ∉ path

namespace IndexEntry

/-- The entry as git lists it, without the zero character at its end. -/
def text (entry : IndexEntry) : Text :=
  entry.mode ++ ' ' :: entry.hash ++ ' ' :: entry.stage ++ '\t' :: entry.path

/-- Of several entries for a path the last one. -/
def IsLast (entries : List IndexEntry) (path : Text) (entry : IndexEntry) : Prop :=
  ∃ before after, entries = before ++ entry :: after ∧ entry.path = path ∧ ∀ later ∈ after, later.path ≠ path

theorem zero_not_mem_text (entry : IndexEntry) : '\x00' ∉ entry.text := by
  simp [text, entry.mode_field.noZero, entry.hash_field.noZero, entry.stage_field.noZero, entry.path_noZero]

end IndexEntry

namespace Checkout

/-- The listing of an index: every entry ends with a zero character. -/
def listing (entries : List IndexEntry) : Text :=
  entries.flatMap fun entry => entry.text ++ ['\x00']

/-- The path of an entry begins behind the first tab, so it may hold others, and blanks and line feeds. -/
theorem readIndexEntry?_text (entry : IndexEntry) : readIndexEntry? entry.text = some (entry.path, entry.hash) := by
  obtain ⟨mode, hash, stage, path, hmode, hhash, hstage, -⟩ := entry
  have hcut : cut? '\t' (mode ++ ' ' :: hash ++ ' ' :: stage ++ '\t' :: path) =
      some (mode ++ ' ' :: hash ++ ' ' :: stage, path) :=
    cut?_eq_some_iff.mpr ⟨rfl, by simp [hmode.noTab, hhash.noTab, hstage.noTab]⟩
  have hfields : (mode ++ ' ' :: hash ++ ' ' :: stage).splitOn ' ' = [mode, hash, stage] := by
    rw [List.append_assoc, List.cons_append, List.splitOn_append_cons_self, List.splitOn_append_cons_self,
      List.splitOn_eq_singleton hmode.noSpace, List.splitOn_eq_singleton hhash.noSpace,
      List.splitOn_eq_singleton hstage.noSpace]
    rfl
  unfold readIndexEntry?
  rw [IndexEntry.text, hcut]
  simp only [Option.bind_eq_bind, Option.bind_some, hfields]
  rfl

/-- A listing is cut back into its entries, with nothing behind the last zero character. -/
theorem splitOn_listing (entries : List IndexEntry) :
    (listing entries).splitOn '\x00' = entries.map IndexEntry.text ++ [[]] := by
  induction entries with
  | nil => rfl
  | cons entry entries ih =>
      rw [listing, List.flatMap_cons, List.append_assoc, List.singleton_append, ← listing,
        List.splitOn_append_cons_self, List.splitOn_eq_singleton entry.zero_not_mem_text, ih]
      rfl

/-- The table of an index has the path and the hash of each entry. -/
theorem readIndex_listing (entries : List IndexEntry) :
    readIndex (listing entries) = Table.ofList (entries.map fun entry => (entry.path, entry.hash)) := by
  have hentries : (entries.map IndexEntry.text).filterMap readIndexEntry? =
      entries.map fun entry => (entry.path, entry.hash) := by
    rw [List.filterMap_map, ← List.filterMap_eq_map]
    exact List.filterMap_congr fun entry _ => readIndexEntry?_text entry
  have hend : [[]].filterMap readIndexEntry? = [] := rfl
  rw [readIndex, splitOn_listing, List.filterMap_append, hentries, hend, List.append_nil]

/-- The table answers for a path with the hash of its last entry. -/
theorem get?_readIndex_iff {entries : List IndexEntry} {path hash : Text} :
    (readIndex (listing entries)).get? path = some hash ↔
      ∃ entry : IndexEntry, entry.IsLast entries path ∧ entry.hash = hash := by
  have hkey : ∀ entry : IndexEntry, compare path entry.path = .eq ↔ entry.path = path := fun entry => by
    rw [Std.LawfulEqCmp.compare_eq_iff_eq, eq_comm]
  rw [readIndex_listing, Table.ofList, Table.get?_insertAll, Table.get?_empty, Option.or_none, ← List.map_reverse,
    List.find?_map, Option.map_map, Option.map_eq_some_iff]
  refine exists_congr fun entry => and_congr_left fun _ => ?_
  rw [List.find?_eq_some_iff_append]
  simp only [Function.comp_apply, beq_iff_eq, hkey, Bool.not_eq_eq_eq_not, Bool.not_true, beq_eq_false_iff_ne, ne_eq]
  constructor
  · rintro ⟨hpath, after, before, hentries, hafter⟩
    refine ⟨before.reverse, after.reverse, ?_, hpath, fun later hlater => hafter later (List.mem_reverse.mp hlater)⟩
    rw [← List.reverse_reverse entries, hentries]
    simp
  · rintro ⟨before, after, rfl, hpath, hafter⟩
    exact ⟨hpath, after.reverse, before.reverse, by simp, fun later hlater => hafter later (List.mem_reverse.mp hlater)⟩

theorem mem_keys_readIndex_iff {entries : List IndexEntry} {path : Text} :
    path ∈ (readIndex (listing entries)).keys ↔ ∃ entry ∈ entries, entry.path = path := by
  rw [readIndex_listing]
  constructor
  · intro h
    obtain ⟨pair, hpair, rfl⟩ := Table.exists_of_mem_keys_ofList h
    obtain ⟨entry, hentry, rfl⟩ := List.mem_map.mp hpair
    exact ⟨entry, hentry, rfl⟩
  · rintro ⟨entry, hentry, rfl⟩
    obtain ⟨key, hkey, heq⟩ := Table.exists_mem_keys_ofList
      (List.mem_map_of_mem (f := fun entry : IndexEntry => (entry.path, entry.hash)) hentry)
    obtain rfl : entry.path = key := Std.LawfulEqCmp.eq_of_compare heq
    exact hkey

/-- The table of a checkout that is opened is that of the index which git lists at its root. -/
theorem hashes_of_openAt {t : FileTree} {git : Git} {directory : Path} {r : Repository}
    (h : openAt t git directory = .ok r) :
    ∃ output, git.run t r.root (arguments "ls-files -s -z") = .ok output ∧ r.hashes = readIndex output := by
  obtain ⟨top, -, h⟩ := bind_eq_ok_iff.mp h
  obtain ⟨root, -, h⟩ := bind_eq_ok_iff.mp h
  obtain ⟨remote, -, h⟩ := bind_eq_ok_iff.mp h
  obtain ⟨revision, -, h⟩ := bind_eq_ok_iff.mp h
  obtain ⟨location, -, h⟩ := bind_eq_ok_iff.mp h
  obtain ⟨output, houtput, h⟩ := bind_eq_ok_iff.mp h
  cases h
  exact ⟨output, houtput, rfl⟩

end Checkout

/-! ### Files below the root -/

namespace Repository

/-- Every path to a file below the root gives the names that lead to the file. -/
theorem relative?_eq_some_iff {r : Repository} {p : Path} {relative : Text} :
    r.relative? p = some relative ↔ ∃ names : List Text, (∀ name ∈ names, IsName name) ∧
      relative = Text.join ['/'] names ∧ p.same (r.root.join ⟨Text.join ['/'] names⟩) = true := by
  rw [relative?, Path.relativeTo?_eq_some_iff]
  refine exists_congr fun names => and_congr_right fun hnames => ?_
  rw [Path.same_iff, Path.components_join_names r.root hnames]

/-- A repository answers for the files of its table, each found by its names below the root. -/
theorem hash?_eq_some_iff {r : Repository} {p : Path} {hash : Text} :
    r.hash? p = some hash ↔ ∃ names : List Text, (∀ name ∈ names, IsName name) ∧
      r.hashes.get? (Text.join ['/'] names) = some hash ∧
        p.same (r.root.join ⟨Text.join ['/'] names⟩) = true := by
  rw [hash?, Option.bind_eq_some_iff]
  constructor
  · rintro ⟨relative, hrelative, hget⟩
    obtain ⟨names, hnames, rfl, hsame⟩ := relative?_eq_some_iff.mp hrelative
    exact ⟨names, hnames, hget, hsame⟩
  · rintro ⟨names, hnames, hget, hsame⟩
    exact ⟨_, relative?_eq_some_iff.mpr ⟨names, hnames, rfl, hsame⟩, hget⟩

end Repository

/-- A checkout answers exactly for the files of its index. The table that is read from a listing has the paths of the
    entries as its keys, each with the hash of its last entry. A repository with this table, such as a checkout that
    is opened while git gives this listing, has a hash for a path exactly if the path is that of names below the root,
    in some spelling, and the table has the hash for these names; and these names are then the relative path. -/
theorem Checkout.hash?_of_index (entries : List IndexEntry) :
    (∀ path hash, (readIndex (listing entries)).get? path = some hash ↔
        ∃ entry : IndexEntry, entry.IsLast entries path ∧ entry.hash = hash) ∧
      (∀ path, path ∈ (readIndex (listing entries)).keys ↔ ∃ entry ∈ entries, entry.path = path) ∧
      (∀ (t : FileTree) (git : Git) (directory : Path) (r : Repository), openAt t git directory = .ok r →
        git.run t r.root (arguments "ls-files -s -z") = .ok (listing entries) →
          r.hashes = readIndex (listing entries)) ∧
      ∀ r : Repository, r.hashes = readIndex (listing entries) → ∀ p : Path,
        (∀ hash, r.hash? p = some hash ↔ ∃ names : List Text, (∀ name ∈ names, IsName name) ∧
          (readIndex (listing entries)).get? (Text.join ['/'] names) = some hash ∧
            p.same (r.root.join ⟨Text.join ['/'] names⟩) = true) ∧
          ∀ names : List Text, (∀ name ∈ names, IsName name) →
            p.same (r.root.join ⟨Text.join ['/'] names⟩) = true → r.relative? p = some (Text.join ['/'] names) := by
  refine ⟨fun path hash => get?_readIndex_iff, fun path => mem_keys_readIndex_iff, ?_, ?_⟩
  · intro t git directory r hopen hlisting
    obtain ⟨output, houtput, hhashes⟩ := hashes_of_openAt hopen
    rw [hlisting] at houtput
    cases houtput
    exact hhashes
  · intro r hhashes p
    rw [← hhashes]
    refine ⟨fun hash => Repository.hash?_eq_some_iff, fun names hnames hsame => ?_⟩
    exact Repository.relative?_eq_some_iff.mpr ⟨names, hnames, rfl, hsame⟩

/-- An index with a file in conflict, whose path holds a tab and a space, and a file in a directory. Of the two hashes
    of the first file the later one counts, and both are found however the paths are spelled, unless they go up. -/
theorem Checkout.hash?_of_index_conflict :
    let theirs : IndexEntry :=
      { mode := "100644".toList, hash := "h1".toList, stage := ['1'], path := "a\tb c.go".toList
        mode_field := by decide, hash_field := by decide, stage_field := by decide, path_noZero := by decide }
    let ours : IndexEntry :=
      { mode := "100644".toList, hash := "h2".toList, stage := ['2'], path := "a\tb c.go".toList
        mode_field := by decide, hash_field := by decide, stage_field := by decide, path_noZero := by decide }
    let inner : IndexEntry :=
      { mode := "100755".toList, hash := "h3".toList, stage := ['0'], path := "src/x.go".toList
        mode_field := by decide, hash_field := by decide, stage_field := by decide, path_noZero := by decide }
    let entries := [theirs, ours, inner]
    let t : FileTree := { nodes := Table.ofList [(["w".toList], .directory)], workingDirectory := [] }
    let git := Git.ofTranscript (Table.ofList ([
      ("git -C /w rev-parse --show-toplevel".toList, "/w\n".toList),
      ("git -C /w remote get-url origin".toList, "git@e.org:o/r\n".toList),
      ("git -C /w rev-parse HEAD".toList, "main\n".toList),
      ("git -C /w ls-files -s -z".toList, listing entries)]))
    ∃ r, openAt t git ⟨"/w".toList⟩ = .ok r ∧
      (readIndex (listing entries)).get? "a\tb c.go".toList = some "h2".toList ∧
      r.hash? ⟨"/w/./a\tb c.go".toList⟩ = some "h2".toList ∧ r.hash? ⟨"/w//src/x.go/".toList⟩ = some "h3".toList ∧
        r.relative? ⟨"/w//src/x.go/".toList⟩ = some "src/x.go".toList ∧
        r.hash? ⟨"/w/src/../src/x.go".toList⟩ = none := by
  intro theirs ours inner entries t git
  obtain ⟨r, hopen⟩ : ∃ r, openAt t git ⟨"/w".toList⟩ = .ok r := by
    cases hopen : openAt t git ⟨"/w".toList⟩ with
    | ok r => exact ⟨r, rfl⟩
    | error fault =>
        have hsome : (openAt t git ⟨"/w".toList⟩).toOption.isSome = true := by decide +kernel
        rw [hopen] at hsome
        cases hsome
  have hroot : r.root = ⟨"/w".toList⟩ := by
    have hroot : (openAt t git ⟨"/w".toList⟩).toOption.map Repository.root = some ⟨"/w".toList⟩ := by decide +kernel
    rw [hopen] at hroot
    exact Option.some.inj hroot
  have hlisting : git.run t ⟨"/w".toList⟩ (arguments "ls-files -s -z") = .ok (listing entries) := by decide +kernel
  obtain ⟨hget, -, hopened, hanswers⟩ := hash?_of_index entries
  have hhashes := hopened t git _ r hopen (hroot ▸ hlisting)
  have hours := (hget "a\tb c.go".toList "h2".toList).mpr
    ⟨ours, ⟨[theirs], [inner], rfl, rfl, by decide⟩, rfl⟩
  have hinner := (hget "src/x.go".toList "h3".toList).mpr ⟨inner, ⟨[theirs, ours], [], rfl, rfl, by decide⟩, rfl⟩
  refine ⟨r, hopen, hours, ?_, ?_, ?_, ?_⟩
  · exact ((hanswers r hhashes _).1 _).mpr ⟨["a\tb c.go".toList], by decide, hours, by rw [hroot]; decide⟩
  · exact ((hanswers r hhashes _).1 _).mpr ⟨["src".toList, "x.go".toList], by decide, hinner, by rw [hroot]; decide⟩
  · exact (hanswers r hhashes _).2 ["src".toList, "x.go".toList] (by decide) (by rw [hroot]; decide)
  · rw [Repository.hash?, Repository.relative?, hroot]
    rfl

end ReqTrace
