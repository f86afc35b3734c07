import SiteAnalysis.Common.Exceptions
import SiteAnalysis.Markup.Tree
import SiteAnalysis.Python.JsonText
import SiteAnalysis.Python.Text

/-
  This file defines the extraction of structured data from
  a parsed page.

  Microdata and RDFa are extracted by one algorithm over the
  attributes of a vocabulary.  A property that repeats is
  collected in a list.  What becomes of the texts and dicts
  that the algorithm builds is a parameter of it, so that
  one definition gives the JSON values of the program and
  the same values with the elements they come from.

  Key definitions include:
    * `shortType`
    * `assign`
    * `flattenJsonLd`
    * `extractJsonLd`
    * `Vocabulary`
    * `parseItem`
    * `extract`
    * `extractMicrodata`
    * `extractRdfa`
-/

------------------------------------------------------------
-- Names and Objects
------------------------------------------------------------

namespace SiteAnalysis.Validator

open Python Markup

/- `_short_type` -/
def shortType : Option String → Option String
| none => none
| some itemtype =>
    if itemtype = "" then
      none
    else
      let first := (words itemtype).head?.getD itemtype
      let name :=
        lastPiece '#'
          (lastPiece '/' (rstripChar '/' first.toList))
      if name = [] then none else some (String.ofList name)

/- What a key of an extracted object holds. -/
inductive Entry (V : Type)
  | one (value : V)
  | many (values : List V)

namespace Entry

variable {V W : Type}

/- One more value under the same key. -/
def push : Entry V → V → Entry V
| .one existing, value => .many [existing, value]
| .many existing, value => .many (existing ++ [value])

/- All the values under the key. -/
def values : Entry V → List V
| .one value => [value]
| .many values => values

def map (f : V → W) : Entry V → Entry W
| .one value => .one (f value)
| .many values => .many (values.map f)

end Entry

/- An extracted object. -/
abbrev Obj (V : Type) := List (String × Entry V)

/- `_assign` -/
def assign
    {V : Type}
    (name : String)
    (value : V) : Obj V → Obj V
| [] => [(name, .one value)]
| (key, entry) :: rest =>
    if key = name then
      (key, entry.push value) :: rest
    else
      (key, entry) :: assign name value rest

/- Assign one value under several names in turn. -/
def assignAll
    {V : Type}
    (names : List String)
    (value : V)
    (obj : Obj V) : Obj V :=
  names.foldl (fun obj name => assign name value obj) obj

------------------------------------------------------------
-- JSON-LD
------------------------------------------------------------

/- `PARSE_ERROR_KEY` -/
def parseErrorKey : String := "@parseError"

/-
  The interpreter: the depth of nesting that its stack lets
  `json.loads` and a recursive function reach, and the text
  of the `ValueError` of `json.loads`.
-/
structure Interpreter where
  loadsDepth : Nat
  callDepth : Nat
  callable : 0 < callDepth
  loadsMessage : String → String

def recursionError : Exc :=
  .other "maximum recursion depth exceeded"

/- `_flatten_json_ld` with calls nested to a depth. -/
def flattenJsonLd :
    Nat → Json → Except Exc (List Json)
| 0, _ => .error recursionError
| depth + 1, .arr entries =>
    (entries.mapM (flattenJsonLd depth)).map List.flatten
| depth + 1, .obj fields =>
    match Json.field "@graph" fields with
    | some (.arr entries) =>
        (entries.mapM (flattenJsonLd depth)).map
          (fun out =>
            let type :=
              (Json.field "@type" fields).getD .null
            if type.truthy then
              out.flatten ++
                [.obj
                  (fields.filter (fun m => m.1 ≠ "@graph"))]
            else
              out.flatten)
    | _ => .ok [.obj fields]
| _ + 1, _ => .ok []

/- `soup.find_all("script", attrs=...)` -/
def isJsonLdScript (e : Element) : Bool :=
  e.tag.name = "script" ∧
    e.tag.attr "type" = some "application/ld+json"

/- `(script.string or script.get_text() or "").strip()` -/
def scriptText (script : Element) : String :=
  let only := script.children.string.getD ""
  stripText (if only = "" then script.getText else only)

/- The objects of one script. -/
def scriptItems
    (python : Interpreter)
    (script : Element) : Except Exc (List Json) :=
  let raw := scriptText script
  if raw = "" then
    .ok []
  else
    match loads python.loadsDepth raw with
    | .ok parsed => flattenJsonLd python.callDepth parsed
    | .error .valueError =>
        .ok
          [.obj
            [(parseErrorKey, .str (python.loadsMessage raw))]]
    | .error .recursionError => .error recursionError

/- `extract_json_ld` -/
def extractJsonLd
    (python : Interpreter)
    (doc : Forest) : Except Exc (List Json) :=
  ((doc.all.filter isJsonLdScript).mapM
    (scriptItems python)).map List.flatten

------------------------------------------------------------
-- Vocabularies
------------------------------------------------------------

/-
  The attributes that open an item, type it and name a
  property, the text of a property and the key of a name.
-/
structure Vocabulary where
  scopeAttr : String
  typeAttr : String
  nameAttr : String
  text : Element → String
  key : String → String

namespace Vocabulary

/- The element opens an item. -/
def opens
    (voc : Vocabulary)
    (tag : Tag) : Bool :=
  tag.has voc.scopeAttr

/- The names of a property, if the element is one. -/
def names
    (voc : Vocabulary)
    (tag : Tag) : List String :=
  (words ((tag.attr voc.nameAttr).getD "")).map voc.key

end Vocabulary

/- `_MICRODATA_VALUE_ATTRS` -/
def microdataValueAttrs : List (String × String) :=
  [("meta", "content"), ("a", "href"), ("link", "href"),
    ("area", "href"), ("img", "src"), ("audio", "src"),
    ("video", "src"), ("source", "src"), ("iframe", "src"),
    ("embed", "src"), ("track", "src"), ("object", "data"),
    ("data", "value"), ("time", "datetime")]

/- `(tag.get(key) or "").strip()`, if the tag has the key. -/
def attrText
    (tag : Tag)
    (key : String) : Option String :=
  (tag.attr key).map stripText

/- `_microdata_value` -/
def microdataValue (e : Element) : String :=
  let own :=
    (microdataValueAttrs.lookup e.tag.name).bind
      (attrText e.tag)
  let text :=
    own.or (attrText e.tag "content")
  text.getD (e.getTextStrip stripText)

def microdata : Vocabulary where
  scopeAttr := "itemscope"
  typeAttr := "itemtype"
  nameAttr := "itemprop"
  text := microdataValue
  key := fun name => name

/- The date of a `time` element. -/
def timeText (tag : Tag) : Option String :=
  if tag.name = "time" then
    attrText tag "datetime"
  else
    none

/- `_rdfa_value` -/
def rdfaValue (e : Element) : String :=
  let text :=
    (((attrText e.tag "content").or
      (attrText e.tag "resource")).or
        (attrText e.tag "href")).or
          (attrText e.tag "src")
  (text.or (timeText e.tag)).getD
    (e.getTextStrip stripText)

def rdfa : Vocabulary where
  scopeAttr := "typeof"
  typeAttr := "typeof"
  nameAttr := "property"
  text := rdfaValue
  key := fun name => (shortType (some name)).getD name

------------------------------------------------------------
-- Items
------------------------------------------------------------

/- What the texts and dicts of the algorithm become. -/
structure Builder (V : Type) where
  text : String → V
  item : Path → Obj V → V

section Items

variable {V : Type}
variable (voc : Vocabulary)
variable (build : Builder V)

/- The object of an item before its properties. -/
def typedObj (tag : Tag) : Obj V :=
  match shortType (tag.attr voc.typeAttr) with
  | some name => [("@type", .one (build.text name))]
  | none => []

/-
  The properties whose nearest scope is the item: the `is`
  of the source compares positions.
-/
def properties (scope : Element) : List Element :=
  (scope.descendants.filter
    (fun e => e.tag.has voc.nameAttr)).filter
      (fun e => e.nearest voc.opens = some scope.path)

theorem size_of_mem_properties
    {scope prop : Element}
    (hMem : prop ∈ properties voc scope) :
    prop.children.size < scope.children.size :=
  Forest.size_of_mem_elements
    (List.mem_of_mem_filter (List.mem_of_mem_filter hMem))

/- `_parse_microdata_item`, `_parse_rdfa_item` -/
def parseItem (scope : Element) : V :=
  build.item scope.path
    ((properties voc scope).attach.foldl
      (fun obj prop =>
        assignAll (voc.names prop.1.tag)
          (if voc.opens prop.1.tag then
            parseItem prop.1
          else
            build.text (voc.text prop.1))
          obj)
      (typedObj voc build scope.tag))
termination_by scope.children.size
decreasing_by exact size_of_mem_properties voc prop.2

/- The value of a property. -/
def propValue (prop : Element) : V :=
  if voc.opens prop.tag then
    parseItem voc build prop
  else
    build.text (voc.text prop)

/- The loop of the source over the properties of an item. -/
theorem parseItem_eq
    (scope : Element) :
    parseItem voc build scope =
      build.item scope.path
        ((properties voc scope).foldl
          (fun obj prop =>
            assignAll (voc.names prop.tag)
              (propValue voc build prop) obj)
          (typedObj voc build scope.tag)) := by
  rw [parseItem]
  exact
    congrArg (build.item scope.path)
      (List.foldl_attach
        (l := properties voc scope)
        (f := fun obj prop =>
          assignAll (voc.names prop.tag)
            (propValue voc build prop) obj)
        (b := typedObj voc build scope.tag))

/- The items of a document that are in no other item. -/
def extract (doc : Forest) : List V :=
  ((doc.all.filter (fun e => voc.opens e.tag)).filter
    (fun e => e.nearest voc.opens = none)).map
      (parseItem voc build)

end Items

/- The values of the program. -/
def jsonBuilder : Builder Json where
  text := .str
  item := fun _ obj =>
    .obj
      (obj.map
        (fun m =>
          (m.1,
            match m.2 with
            | .one value => value
            | .many values => .arr values)))

/- `extract_microdata` -/
def extractMicrodata (doc : Forest) : List Json :=
  extract microdata jsonBuilder doc

/- `extract_rdfa` -/
def extractRdfa (doc : Forest) : List Json :=
  extract rdfa jsonBuilder doc

end SiteAnalysis.Validator
