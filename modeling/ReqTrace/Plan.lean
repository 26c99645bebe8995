/-
Module: ReqTrace.Plan
Purpose: The edits that make documents and manifests say what the tags of the source files say.
Main exports: ScanResult, Declaration, Index, Evidence, Citations, plan
-/
import ReqTrace.Action
import ReqTrace.Location
import ReqTrace.Manifest
import ReqTrace.Record

namespace ReqTrace

/-- What a scan found: the files, the manifests by their directories, and everything that is
    malformed. -/
structure ScanResult where
  files : List FileRecord
  manifests : Table Path Manifest
  errors : List SyntaxError

namespace ScanResult

/-- The documents, in the order of the files. -/
def documents (s : ScanResult) : List DocumentRecord :=
  s.files.filterMap FileRecord.document?

/-- The source files, in the order of the files. -/
def sources (s : ScanResult) : List SourceRecord :=
  s.files.filterMap FileRecord.source?

end ScanResult

/-! ### Declarations -/

/-- A requirement where a document declares it. -/
structure Declaration where
  id : RequirementId
  document : DocumentRecord
  site : Site
  deriving DecidableEq

/-- The requirements by their ids, and everything that is wrong so far, the latest first. -/
structure Index where
  declarations : Table RequirementId Declaration
  errors : List SemanticError

namespace Index

/-- The index of no document. -/
def empty : Index :=
  { declarations := Table.empty, errors := [] }

/-- Adds a declaration. The first one of an id counts; each further one is an error that names it. -/
def addDeclaration (index : Index) (d : Declaration) : Index :=
  match index.declarations.get? d.id with
  | some first =>
      { index with
        errors :=
          { path := d.document.path, line := d.site.line
            fault := .duplicateRequirement d.id first.document.path first.site.line } :: index.errors }
  | none => { index with declarations := index.declarations.insert d.id d }

/-- Adds the declarations of a document. A document with sites has to name its package. -/
def addDocument (index : Index) (d : DocumentRecord) : Index :=
  match d.sites, d.package with
  | [], _ => index
  | first :: _, none =>
      { index with
        errors := { path := d.path, line := first.line, fault := .missingPackage } :: index.errors }
  | sites, some package =>
      (sites.map fun site => Declaration.mk ⟨package, site.name⟩ d site).foldl addDeclaration index

/-- The index of some documents, in their order. -/
def ofDocuments (documents : List DocumentRecord) : Index :=
  documents.foldl addDocument empty

end Index

/-- Orders declarations by document, line and place in the line. -/
def Declaration.place (d : Declaration) : Path × Nat × Nat :=
  (d.document.path, d.site.line, d.site.span.start)

/-- The order of places: by path, then line, then column. -/
def comparePlaces : Path × Nat × Nat → Path × Nat × Nat → Ordering :=
  compareLex (compareOn (·.1)) (compareLex (compareOn (·.2.1)) (compareOn (·.2.2)))

/-- The declarations of an index in document order. -/
def Index.inDocumentOrder (index : Index) : List Declaration :=
  (index.declarations.toList.map (·.2)).mergeSort fun a b => (comparePlaces a.place b.place).isLE

/-- Errors in the order of their files and lines. -/
def sortErrors (errors : List SemanticError) : List SemanticError :=
  errors.mergeSort fun a b =>
    (compareLex (compareOn SemanticError.path) (compareOn SemanticError.line) a b).isLE

/-! ### Coverage -/

/-- A tag with the source file that holds it. -/
structure Evidence where
  source : SourceRecord
  tag : Tag
  deriving DecidableEq

namespace Evidence

/-- The order of evidence: by file, then line. -/
def compare : Evidence → Evidence → Ordering :=
  compareLex (compareOn fun e : Evidence => e.source.path) (compareOn fun e : Evidence => e.tag.line)

/-- The link to a tag. It is labelled with the path of the file, the line and the type of coverage. -/
def coverer (e : Evidence) : Coverer :=
  { label := (e.source.relative.getD e.source.path.text) ++ ':' :: Text.decimal e.tag.line ++
      ':' :: e.tag.type
    url := lineUrl (e.source.url.getD []) e.tag.line }

/-- The address and hash of the file, if both are known. -/
def citation? (e : Evidence) : Option (Text × Text) := do
  return (← e.source.url, ← e.source.hash)

end Evidence

/-- All tags of some source files. -/
def allEvidence (sources : List SourceRecord) : List Evidence :=
  sources.flatMap fun source => source.tags.map fun tag => { source, tag }

/-- The tags that name a requirement, by file and line. -/
def evidenceFor (sources : List SourceRecord) (id : RequirementId) : List Evidence :=
  ((allEvidence sources).filter (·.tag.requirement == id)).mergeSort fun a b =>
    (Evidence.compare a b).isLE

/-! ### Edits of documents -/

/-- The status that a site should have: covered if there is a tag, and uncovered if there is none any
    more. A requirement that was never covered is left as it is. -/
def desiredStatus? (site : Site) (evidence : List Evidence) : Option SiteStatus :=
  if evidence ≠ [] then some .covered
  else if site.status = .covered then some .uncovered
  else none

namespace Declaration

/-- The edit of the marker, if it has another status. -/
def siteActions (d : Declaration) (status : SiteStatus) : List Action :=
  if d.site.status = status then []
  else [.site d.document.path d.site.line d.id (Site.render d.site.name status)]

/-- The footnote that lists the evidence. -/
def footnoteText (d : Declaration) (evidence : List Evidence) : Text :=
  Footnote.render d.site.name d.id.hint (evidence.map Evidence.coverer)

/-- The edit of the footnote, if it reads otherwise or is missing. -/
def footnoteActions (d : Declaration) (evidence : List Evidence) : List Action :=
  let text := d.footnoteText evidence
  match d.document.footnote? d.site.name with
  | some existing =>
      if existing.raw = text then [] else [.footnote d.document.path existing.line d.id text]
  | none => [.footnote d.document.path 0 d.id text]

/-- The edits for a declaration with its evidence. -/
def actions (d : Declaration) (evidence : List Evidence) : List Action :=
  match desiredStatus? d.site evidence with
  | none => []
  | some status => d.siteActions status ++ d.footnoteActions evidence

end Declaration

/-! ### Edits of manifests -/

/-- The citations in the directories of the documents. -/
abbrev Citations := Table Path Manifest

/-- Adds what the document of a declaration cites to the manifest of its directory. -/
def Citations.add (citations : Citations) (d : Declaration) (evidence : List Evidence) : Citations :=
  match desiredStatus? d.site evidence, d.document.path.parent? with
  | some _, some directory =>
      citations.insert directory
        (((citations.get? directory).getD Table.empty).insertAll
          (evidence.filterMap Evidence.citation?))
  | _, _ => citations

/-- The edits that turn one manifest into another: new and changed hashes, then files that are no longer
    cited. -/
def manifestActions (path : Path) (previous desired : Manifest) : List Action :=
  (desired.toList.filterMap fun (url, hash) =>
    if previous.get? url = some hash then none else some (.setHash path url hash)) ++
  (previous.toList.filterMap fun (url, _) =>
    if (desired.get? url).isSome then none else some (.dropHash path url))

/-- The directories that have a document or a manifest, in path order. Of several spellings the one of
    the manifest counts, or else that of the last document. -/
def manifestDirectories (s : ScanResult) : List Path :=
  (Table.ofList ((s.documents.filterMap (·.path.parent?) ++ s.manifests.keys).reverse.map
    fun directory => (directory, ()))).keys

/-! ### The plan -/

/-- Plans all edits: first those of the documents, in document order, then those of the manifests.
    Declarations that contradict each other are reported instead. -/
def plan (s : ScanResult) : Except (List SemanticError) (List Action) :=
  let index := Index.ofDocuments s.documents
  if index.errors ≠ [] then .error (sortErrors index.errors.reverse)
  else
    let declared := index.inDocumentOrder.map fun d => (d, evidenceFor s.sources d.id)
    let citations :=
      declared.foldl (fun (citations : Citations) (d, evidence) => citations.add d evidence)
        Table.empty
    .ok (declared.flatMap (fun (d, evidence) => d.actions evidence) ++
      (manifestDirectories s).flatMap fun directory =>
        manifestActions (directory.join ⟨Manifest.fileName⟩)
          ((s.manifests.get? directory).getD Table.empty)
          ((citations.get? directory).getD Table.empty))

end ReqTrace
