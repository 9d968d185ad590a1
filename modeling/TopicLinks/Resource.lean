import TopicLinks.AuthoredLink
import TopicLinks.Source

/-!
# Resources and assets

A resource is a file that a page shows or offers, such as an image or an archive. It is
never a topic: the only question about it is whether it exists.
-/

namespace TopicLinks

/-- A reference to a file of a bundle. -/
structure Resource where
  /-- The bundle that is to hold the file. -/
  bundle : String
  /-- The path or name as written. -/
  path : String
  deriving DecidableEq

/-- A resource on the web is not looked up in its bundle. -/
def Resource.isWeb (resource : Resource) : Bool := (AuthoredLink.parse resource.path).isWebLink

/-- A reference to a resource at a place of a page. -/
structure Media where
  /-- The file that is shown. -/
  resource : Resource
  /-- The range of the reference in its page. -/
  range : Option SourceRange
  deriving DecidableEq

/-- How an asset is presented. -/
inductive AssetUse where
  /-- Shown in the page. -/
  | display
  /-- Offered as a download. -/
  | download
  deriving DecidableEq

/-- A file known to a bundle, with its variants. -/
structure Asset where
  /-- The name of the asset. -/
  name : String
  /-- How the asset is presented. -/
  use : AssetUse
  /-- The files behind the asset, one for each variant. -/
  files : List String
  deriving DecidableEq

end TopicLinks
