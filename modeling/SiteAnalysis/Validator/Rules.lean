import SiteAnalysis.Python.Text

/-
  This file defines the registry of validation rules.

  Key definitions include:
    * `Expected`
    * `SchemaRule`
    * `rules`
    * `getRule`

  Key theorems include:
    * `getRule_of_mem`
-/

------------------------------------------------------------
-- Rules
------------------------------------------------------------

namespace SiteAnalysis.Validator

open Python

/- The expected-type tokens. -/
inductive Expected
  | text
  | url
  | number
  | date
  | datetime
  | image
  | object
  | array
  | textOrObject
deriving DecidableEq

/- `TYPE_LABELS` -/
def Expected.label : Expected → String
| .text => "text"
| .url => "a valid URL"
| .number => "numeric"
| .date => "a date (YYYY-MM-DD)"
| .datetime => "a date/time (ISO 8601)"
| .image => "a URL or ImageObject"
| .object => "an object"
| .array => "an array"
| .textOrObject => "text or an object"

/- The rule of one type; what is left out is empty. -/
structure SchemaRule where
  required : List String := []
  recommended : List String := []
  propertyTypes : List (String × Expected) := []
  richResultRequired : List String := []
  listProperty : Option String := none
  listItemType : Option String := none
  listItemRequired : List String := []
  listItemNested : List (String × List String) := []
  objectRecommended : List (String × List String) := []

------------------------------------------------------------
-- The Registry
------------------------------------------------------------

def organizationRule : SchemaRule where
  required := ["name", "url"]
  recommended := ["logo", "contactPoint"]
  propertyTypes := [("url", .url), ("logo", .image)]
  richResultRequired := ["name", "url", "logo"]

def productRule : SchemaRule where
  required := ["name", "image"]
  recommended := ["offers", "description", "brand"]
  propertyTypes := [("image", .image), ("offers", .object)]
  objectRecommended :=
    [("offers", ["price", "priceCurrency", "availability"])]
  richResultRequired := ["name", "image", "offers"]

def articleRule : SchemaRule where
  required := ["headline", "author", "datePublished", "image"]
  recommended := ["publisher", "dateModified"]
  propertyTypes :=
    [("headline", .text), ("datePublished", .datetime),
      ("image", .image), ("author", .textOrObject)]
  richResultRequired :=
    ["headline", "image", "datePublished", "author"]

def breadcrumbListRule : SchemaRule where
  required := ["itemListElement"]
  propertyTypes := [("itemListElement", .array)]
  listProperty := some "itemListElement"
  listItemRequired := ["position", "name", "item"]
  richResultRequired := ["itemListElement"]

def faqPageRule : SchemaRule where
  required := ["mainEntity"]
  propertyTypes := [("mainEntity", .array)]
  listProperty := some "mainEntity"
  listItemType := some "Question"
  listItemRequired := ["name", "acceptedAnswer"]
  listItemNested := [("acceptedAnswer", ["text"])]
  richResultRequired := ["mainEntity"]

def localBusinessRule : SchemaRule where
  required := ["name", "address", "telephone"]
  recommended := ["openingHours", "priceRange", "geo"]
  propertyTypes :=
    [("address", .textOrObject), ("telephone", .text)]
  richResultRequired := ["name", "address", "telephone"]

def eventRule : SchemaRule where
  required := ["name", "startDate", "location"]
  recommended := ["endDate", "offers", "description"]
  propertyTypes :=
    [("startDate", .datetime), ("location", .textOrObject)]
  richResultRequired := ["name", "startDate", "location"]

def reviewRule : SchemaRule where
  required := ["itemReviewed", "reviewRating", "author"]
  recommended := ["reviewBody", "datePublished"]
  propertyTypes :=
    [("reviewRating", .object), ("author", .textOrObject)]
  objectRecommended := [("reviewRating", ["ratingValue"])]
  richResultRequired :=
    ["itemReviewed", "reviewRating", "author"]

/- `RULES` in the order of registration. -/
def rules : List (String × SchemaRule) :=
  [("Organization", organizationRule),
    ("Product", productRule),
    ("Article", articleRule),
    ("NewsArticle", articleRule),
    ("BlogPosting", articleRule),
    ("BreadcrumbList", breadcrumbListRule),
    ("FAQPage", faqPageRule),
    ("LocalBusiness", localBusinessRule),
    ("Event", eventRule),
    ("Review", reviewRule)]

/- `get_rule` -/
def getRule (schemaType : String) : Option SchemaRule :=
  if schemaType = "" then
    none
  else
    match rules.lookup schemaType with
    | some rule => some rule
    | none =>
        (rules.find?
          (fun r => lower r.1 = lower schemaType)).map
            Prod.snd

/- Every rule that is found is one of the registry. -/
theorem getRule_of_mem
    {schemaType : String}
    {rule : SchemaRule}
    (hRule : getRule schemaType = some rule) :
    rule ∈ rules.map Prod.snd := by
  unfold getRule at hRule
  split at hRule
  · cases hRule
  · split at hRule
    · rename_i found hLookup
      cases hRule
      rcases List.lookup_eq_some_iff.mp hLookup with
        ⟨front, back, hList, _⟩
      rw [hList]
      simp
    · rcases Option.map_eq_some_iff.mp hRule with
        ⟨entry, hFind, rfl⟩
      exact
        List.mem_map_of_mem (List.mem_of_find?_eq_some hFind)

end SiteAnalysis.Validator
