import Sheetsmith.Text.Blank
import Sheetsmith.Text.Fold
import Sheetsmith.Text.Split

namespace Sheetsmith

/-- A browser engine. -/
inductive Vendor where
  | mozilla
  | webkit
  | opera
  | msie
deriving DecidableEq

namespace Vendor

/-- All vendors, in the order in which their forms are added to a declaration. -/
def all : List Vendor :=
  [.mozilla, .webkit, .opera, .msie]

/-- The name of a vendor in a list of vendors. -/
def name : Vendor → String
  | .mozilla => "mozilla"
  | .webkit => "webkit"
  | .opera => "opera"
  | .msie => "msie"

/-- The header word of the vendor's keyframes. -/
def keyframesWord : Vendor → String
  | .mozilla => "@-moz-keyframes"
  | .webkit => "@-webkit-keyframes"
  | .opera => "@-o-keyframes"
  | .msie => "@-ms-keyframes"

/-- The vendor of a name; names do not regard ASCII case. -/
def ofName? (text : String) : Option Vendor :=
  all.find? fun vendor => Text.sameFold vendor.name text

end Vendor

/-- A set of vendors. -/
structure VendorSet where
  mozilla : Bool
  webkit : Bool
  opera : Bool
  msie : Bool
deriving DecidableEq

namespace VendorSet

/-- The set of the vendors with a property. -/
def ofPred (p : Vendor → Bool) : VendorSet :=
  ⟨p .mozilla, p .webkit, p .opera, p .msie⟩

/-- Whether a vendor belongs to the set. -/
def contains (vendors : VendorSet) : Vendor → Bool
  | .mozilla => vendors.mozilla
  | .webkit => vendors.webkit
  | .opera => vendors.opera
  | .msie => vendors.msie

/-- The members, in the order of `Vendor.all`. -/
def toList (vendors : VendorSet) : List Vendor :=
  Vendor.all.filter vendors.contains

/-- Whether the set has no members. -/
def isEmpty (vendors : VendorSet) : Bool :=
  vendors.toList.isEmpty

/-- The set of one vendor. -/
def only (vendor : Vendor) : VendorSet :=
  ofPred (· == vendor)

/-- The set that a text lists: `all`, or names between commas. Unknown names are passed over. -/
def ofText (text : String) : VendorSet :=
  if Text.sameFold (Text.trimmed text) "all" then ofPred fun _ => true
  else
    let listed := (Text.splitAtEach ',' text.toList).filterMap fun part =>
      Vendor.ofName? (String.ofList (Text.trim part))
    ofPred listed.contains

end VendorSet

/-- What each vendor calls a property or a function; `none` where it has no name of its own. -/
structure VendorForms where
  mozilla : Option String
  webkit : Option String
  opera : Option String
  msie : Option String
deriving DecidableEq

namespace VendorForms

/-- The form of one vendor. -/
def of? (forms : VendorForms) : Vendor → Option String
  | .mozilla => forms.mozilla
  | .webkit => forms.webkit
  | .opera => forms.opera
  | .msie => forms.msie

/-- The forms of the vendors in a set, in the order of `Vendor.all`. -/
def within (forms : VendorForms) (vendors : VendorSet) : List String :=
  vendors.toList.filterMap forms.of?

end VendorForms

end Sheetsmith
