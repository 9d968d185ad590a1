import TopicLinks.Assoc
import TopicLinks.Dialogue

/-!
# Catalogs

A catalog is a knowledge base for one bundle: lists of the pages, resources and assets
that exist. Links are looked up by path; a relative link is tried below its parent
first, and then beside it.
-/

namespace TopicLinks

/-- What exists in a bundle. -/
structure Catalog where
  /-- The bundle. -/
  bundle : String := "org.example.Kit"
  /-- The paths of the pages. -/
  pages : List String := []
  /-- The paths of the resources. -/
  resources : List String := []
  /-- The assets, by the name they are registered under. -/
  assets : List (String × Asset) := []
  /-- The articles that are not curated, by the path they match. -/
  uncurated : List (String × SourceLocation) := []
  /-- What is said about a path that does not resolve. -/
  messages : List (String × String) := []
  /-- What a link that does not resolve is understood as. -/
  renames : List (String × String) := []
  /-- The path of the root of the bundle. -/
  root : String := "/"
  /-- The path of the root of articles and symbols. -/
  documentationRoot : String := "/documentation/Kit"
  /-- The path of the root of tutorials. -/
  tutorialsRoot : String := "/tutorials/Kit"

namespace Catalog

/-- The part of a path before its last slash. -/
def parentPath (path : String) : String :=
  .ofList ((path.toList.reverse.dropWhile (· != '/')).drop 1).reverse

/-- The paths under which a link is looked up, in order. -/
def candidates (link : AuthoredLink) (parent : Identity) : List String :=
  if link.isRelative then
    [parent.path ++ "/" ++ link.path, parentPath parent.path ++ "/" ++ link.path]
  else [link.path]

/-- Why a link does not resolve. -/
def failure (catalog : Catalog) (link : AuthoredLink) : ResolutionFailure where
  message := (Assoc.get? catalog.messages link.path).getD
    ("No page named '" ++ link.path ++ "'.")
  link := ((Assoc.get? catalog.renames link.raw).map .parse).getD link

/-- Look up a link. The topic found has the link's fragment and the parent's languages. -/
def find (catalog : Catalog) (link : AuthoredLink) (parent : Identity) :
    Except ResolutionFailure Identity :=
  match (candidates link parent).find? catalog.pages.contains with
  | some path => .ok (.ofText catalog.bundle path link.fragment parent.languages)
  | none => .error (catalog.failure link)

/-- The path of a root. -/
def rootPath (catalog : Catalog) : Root → String
  | .bundle => catalog.root
  | .documentation => catalog.documentationRoot
  | .tutorials => catalog.tutorialsRoot

/-- The identity of a root. -/
def rootIdentity (catalog : Catalog) (root : Root) : Identity :=
  .ofText catalog.bundle (catalog.rootPath root) none (.single "swift")

/-- The answer of a catalog. Only an update of an asset changes it. -/
def answer (q : Query) (catalog : Catalog) : q.Answer × Catalog :=
  match q with
  | .resolve link parent _ => (catalog.find link parent, catalog)
  | .resourceExists resource =>
    (resource.bundle == catalog.bundle && catalog.resources.contains resource.path, catalog)
  | .uncuratedMatch path => (Assoc.get? catalog.uncurated path, catalog)
  | .root root => (catalog.rootIdentity root, catalog)
  | .findAsset name _ => (Assoc.get? catalog.assets name, catalog)
  | .updateAsset name asset _ =>
    ((), { catalog with assets := Assoc.set catalog.assets name asset })

/-- Catalogs as a knowledge base. -/
def knowledge : KnowledgeBase Catalog := ⟨answer⟩

/-- Register an asset under its name. -/
def addAsset (catalog : Catalog) (asset : Asset) : Catalog :=
  { catalog with assets := Assoc.set catalog.assets asset.name asset }

/-- The assets in the order of the names they are registered under. -/
def assetsByName (catalog : Catalog) : List (String × Asset) :=
  catalog.assets.mergeSort (fun a b => decide (a.1 ≤ b.1))

end Catalog

end TopicLinks
