/-
Module: ReqTrace.Manifest
Purpose: Manifests: for every directory of documents, the hashes that the cited source files had when
  the footnotes were written.
Main exports: Manifest, Manifest.parse, Manifest.render, Manifest.fileName
-/
import ReqTrace.Json.Object
import ReqTrace.Table

namespace ReqTrace

/-- The hash recorded for each cited file, by its URL. -/
abbrev Manifest := Table Text Text

namespace Manifest

/-- The name of a manifest file. -/
def fileName : Text := "reqmdfiles.json".toList

/-- Reads a manifest. Of a repeated URL the last hash counts. -/
def parse (t : Text) : Except Json.ReadError Manifest :=
  (Json.readObject t).map Table.ofList

/-- Writes a manifest in URL order, ending with a line feed. -/
def render (m : Manifest) : Text :=
  Json.renderObject m.toList ++ ['\n']

end Manifest

end ReqTrace
