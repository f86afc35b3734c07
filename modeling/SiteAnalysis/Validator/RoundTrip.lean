import SiteAnalysis.Python.JsonDump
import SiteAnalysis.Validator.Items

/-
  This file proves that extraction undoes rendering.

  An item has a type and an ordered list of properties whose
  names may repeat.  Its rendering as Microdata or RDFa is a
  tree of elements with any number of plain elements and
  strings in between; its rendering as JSON-LD is the text
  of an object that collects repeated names in an array.

  Key definitions include:
    * `Item`
    * `Item.toJson`
    * `Renders`
    * `RendersDocument`
    * `RendersJsonLd`

  Key theorems include:
    * `foldl_assign`
    * `walk_renders`
    * `extraction_undoes_rendering`
-/

------------------------------------------------------------
-- Items
------------------------------------------------------------

namespace SiteAnalysis.Validator

open Python Markup

/- A word without `/` and `#`. -/
def PlainName (name : String) : Prop :=
  IsWord name ∧ '/' ∉ name.toList ∧ '#' ∉ name.toList

instance (name : String) : Decidable (PlainName name) :=
  inferInstanceAs (Decidable (_ ∧ _ ∧ _))

/- The keys that have a meaning of their own. -/
def reservedKeys : List String :=
  ["@type", "@graph", parseErrorKey]

structure TypeName where
  name : String
  plain : PlainName name

structure PropName where
  name : String
  plain : PlainName name
  free : name ∉ reservedKeys

/- A text without white space at its ends. -/
structure TrimmedText where
  text : String
  trimmed : stripText text = text

/-
  The properties of an item in order: texts, and nested
  items with a type and properties of their own.
-/
inductive Props
  | nil
  | text
      (name : PropName)
      (value : TrimmedText)
      (rest : Props)
  | item
      (name : PropName)
      (type : TypeName)
      (props : Props)
      (rest : Props)

structure Item where
  type : TypeName
  props : Props

------------------------------------------------------------
-- JSON Objects
------------------------------------------------------------

/- The different names of a list in order. -/
def firsts : List String → List String
| [] => []
| name :: names =>
    name :: (firsts names).filter (· ≠ name)

/- The values of one name. -/
def valuesOf
    {V : Type}
    (name : String)
    (pairs : List (String × V)) : List V :=
  (pairs.filter (fun p => p.1 = name)).map Prod.snd

/- One value stands alone, several in an array. -/
def collectValues : List Json → Json
| [value] => value
| values => .arr values

/- An object of named values. -/
def collect
    (pairs : List (String × Json)) :
    List (String × Json) :=
  (firsts (pairs.map Prod.fst)).map
    (fun name => (name, collectValues (valuesOf name pairs)))

/- An object of a type. -/
def typedObject
    (type : TypeName)
    (pairs : List (String × Json)) : Json :=
  .obj (("@type", .str type.name) :: collect pairs)

/- The named values of properties. -/
def Props.pairs : Props → List (String × Json)
| .nil => []
| .text name value rest =>
    (name.name, .str value.text) :: rest.pairs
| .item name type props rest =>
    (name.name, typedObject type props.pairs) :: rest.pairs

/- The object of an item. -/
def Item.toJson (item : Item) : Json :=
  typedObject item.type item.props.pairs

/- Properties in a row. -/
def Props.append : Props → Props → Props
| .nil, ps => ps
| .text name value rest, ps =>
    .text name value (rest.append ps)
| .item name type props rest, ps =>
    .item name type props (rest.append ps)

theorem pairs_append
    (ps ps' : Props) :
    (ps.append ps').pairs = ps.pairs ++ ps'.pairs := by
  induction ps with
  | nil => rfl
  | text name value rest ih =>
      simp [Props.append, Props.pairs, ih]
  | item name type props rest _ ih =>
      simp [Props.append, Props.pairs, ih]

/- No property has a reserved key. -/
theorem free_of_mem_pairs
    {ps : Props}
    {p : String × Json}
    (hMem : p ∈ ps.pairs) :
    p.1 ∉ reservedKeys := by
  induction ps with
  | nil => cases hMem
  | text name value rest ih =>
      rcases List.mem_cons.mp hMem with hHead | hRest
      · subst hHead
        exact name.free
      · exact ih hRest
  | item name type props rest _ ih =>
      rcases List.mem_cons.mp hMem with hHead | hRest
      · subst hHead
        exact name.free
      · exact ih hRest

------------------------------------------------------------
-- Assigning in Turn
------------------------------------------------------------

section Collect

variable {V : Type}

/- The entry of a list of values. -/
def entryOf : List V → Entry V
| [value] => .one value
| values => .many values

theorem push_entryOf
    {values : List V}
    (hSome : values ≠ [])
    (value : V) :
    (entryOf values).push value =
      entryOf (values ++ [value]) := by
  match values, hSome with
  | [existing], _ => rfl
  | existing :: next :: rest, _ => rfl

theorem mem_firsts
    {name : String}
    {names : List String} :
    name ∈ firsts names ↔ name ∈ names := by
  induction names with
  | nil => rfl
  | cons head names ih =>
      by_cases hSame : name = head
      · simp [firsts, hSame]
      · simp [firsts, hSame, ih]

theorem nodup_firsts
    (names : List String) : (firsts names).Nodup := by
  induction names with
  | nil => exact List.nodup_nil
  | cons head names ih =>
      rw [firsts, List.nodup_cons]
      exact ⟨by simp, ih.filter _⟩

/- A name at the end is new or already there. -/
theorem firsts_concat
    (names : List String)
    (name : String) :
    firsts (names ++ [name]) =
      if name ∈ names then
        firsts names
      else
        firsts names ++ [name] := by
  induction names with
  | nil => rfl
  | cons head names ih =>
      by_cases hSame : head = name
      · subst hSame
        by_cases hMem : head ∈ names
        · simp [firsts, ih, hMem]
        · simp [firsts, ih, hMem]
      · by_cases hMem : name ∈ names
        · simp [firsts, ih, hMem]
        · simp [firsts, ih, hMem, Ne.symm hSame]

theorem valuesOf_concat
    (name : String)
    (pairs : List (String × V))
    (p : String × V) :
    valuesOf name (pairs ++ [p]) =
      if p.1 = name then
        valuesOf name pairs ++ [p.2]
      else
        valuesOf name pairs := by
  by_cases hSame : p.1 = name <;>
    simp [valuesOf, List.filter_append, hSame]

theorem valuesOf_ne_nil
    {name : String}
    {pairs : List (String × V)}
    (hMem : name ∈ pairs.map Prod.fst) :
    valuesOf name pairs ≠ [] := by
  rcases List.mem_map.mp hMem with ⟨p, hPair, hName⟩
  have hValue : p.2 ∈ valuesOf name pairs :=
    List.mem_map_of_mem
      (List.mem_filter.mpr ⟨hPair, by simp [hName]⟩)
  exact List.ne_nil_of_mem hValue

theorem valuesOf_of_not_mem
    {name : String}
    {pairs : List (String × V)}
    (hAbsent : name ∉ pairs.map Prod.fst) :
    valuesOf name pairs = [] := by
  rw [valuesOf, List.map_eq_nil_iff, List.filter_eq_nil_iff]
  intro p hPair hSame
  apply hAbsent
  rw [← of_decide_eq_true hSame]
  exact List.mem_map_of_mem hPair

/- Assigning under a name that is not there. -/
theorem assign_of_not_mem
    {name : String}
    {obj : Obj V}
    (hAbsent : name ∉ List.map Prod.fst obj)
    (value : V) :
    assign name value obj = obj ++ [(name, .one value)] := by
  induction obj with
  | nil => rfl
  | cons m rest ih =>
      rcases m with ⟨key, entry⟩
      simp only [List.map_cons, List.mem_cons, not_or]
        at hAbsent
      rw [assign, if_neg (Ne.symm hAbsent.1), ih hAbsent.2,
        List.cons_append]

/- Assigning under one of several different names. -/
theorem assign_map
    {names : List String}
    (hNodup : names.Nodup)
    {name : String}
    (hMem : name ∈ names)
    (value : V)
    (entry : String → Entry V) :
    assign name value
        (names.map (fun key => (key, entry key))) =
      names.map
        (fun key =>
          (key,
            if key = name then
              (entry key).push value
            else
              entry key)) := by
  induction names with
  | nil => cases hMem
  | cons head names ih =>
      rw [List.nodup_cons] at hNodup
      rw [List.map_cons, List.map_cons, assign]
      by_cases hSame : head = name
      · subst hSame
        rw [if_pos rfl, if_pos rfl]
        congr 1
        apply List.map_congr_left
        intro key hKey
        have hNe : key ≠ head := by
          intro hEq
          subst hEq
          exact hNodup.1 hKey
        rw [if_neg hNe]
      · rw [if_neg hSame, if_neg hSame]
        have hTail : name ∈ names := by
          simpa [Ne.symm hSame] using hMem
        rw [ih hNodup.2 hTail]

/- An object that collects the values of every name. -/
def collected (pairs : List (String × V)) : Obj V :=
  (firsts (pairs.map Prod.fst)).map
    (fun name => (name, entryOf (valuesOf name pairs)))

/- One more pair is one more assignment. -/
theorem assign_collected
    (pairs : List (String × V))
    (p : String × V) :
    assign p.1 p.2 (collected pairs) =
      collected (pairs ++ [p]) := by
  unfold collected
  rw [List.map_append, List.map_cons, List.map_nil,
    firsts_concat]
  by_cases hMem : p.1 ∈ pairs.map Prod.fst
  · rw [if_pos hMem,
      assign_map (nodup_firsts _) (mem_firsts.mpr hMem)]
    apply List.map_congr_left
    intro name hName
    have hThere : name ∈ pairs.map Prod.fst :=
      mem_firsts.mp hName
    rw [valuesOf_concat]
    by_cases hSame : name = p.1
    · rw [if_pos hSame, if_pos hSame.symm,
        push_entryOf (valuesOf_ne_nil hThere)]
    · rw [if_neg hSame, if_neg (Ne.symm hSame)]
  · rw [if_neg hMem, List.map_append, assign_of_not_mem]
    · congr 1
      · apply List.map_congr_left
        intro name hName
        have hNe : p.1 ≠ name := by
          intro hSame
          apply hMem
          rw [hSame]
          exact mem_firsts.mp hName
        rw [valuesOf_concat, if_neg hNe]
      · simp [valuesOf_concat, valuesOf_of_not_mem hMem,
          entryOf]
    · intro hThere
      apply hMem
      simpa [List.map_map, Function.comp_def, mem_firsts]
        using hThere

/- Assigning pairs in turn collects the values of a name. -/
theorem foldl_assign
    (pairs done : List (String × V)) :
    pairs.foldl (fun obj p => assign p.1 p.2 obj)
        (collected done) =
      collected (done ++ pairs) := by
  induction pairs generalizing done with
  | nil => simp
  | cons p pairs ih =>
      rw [List.foldl_cons, assign_collected, ih,
        List.append_assoc, List.singleton_append]

/- A key in front that is no name stays in front. -/
theorem foldl_assign_cons
    {pairs : List (String × V)}
    {key : String}
    (hFree : ∀ p ∈ pairs, p.1 ≠ key)
    (entry : Entry V)
    (obj : Obj V) :
    pairs.foldl (fun obj p => assign p.1 p.2 obj)
        ((key, entry) :: obj) =
      (key, entry) ::
        pairs.foldl (fun obj p => assign p.1 p.2 obj) obj := by
  induction pairs generalizing obj with
  | nil => rfl
  | cons p pairs ih =>
      have hNe : key ≠ p.1 := by
        intro hSame
        exact hFree p List.mem_cons_self hSame.symm
      rw [List.foldl_cons, List.foldl_cons, assign,
        if_neg hNe]
      apply ih
      intro q hQ
      exact hFree q (List.mem_cons_of_mem _ hQ)

end Collect

/- The dict of a type and properties is their object. -/
theorem item_foldl_assign
    (path : Path)
    (type : TypeName)
    (ps : Props) :
    jsonBuilder.item path
        (ps.pairs.foldl (fun obj p => assign p.1 p.2 obj)
          [("@type", .one (.str type.name))]) =
      typedObject type ps.pairs := by
  have hFree : ∀ p ∈ ps.pairs, p.1 ≠ "@type" := by
    intro p hMem hSame
    apply free_of_mem_pairs hMem
    simp [reservedKeys, hSame]
  have hEmpty : ([] : Obj Json) = collected [] := rfl
  rw [foldl_assign_cons hFree, hEmpty, foldl_assign]
  simp only [jsonBuilder, typedObject, collect, collected,
    List.nil_append, List.map_cons, List.map_map]
  congr 2
  apply List.map_congr_left
  intro name _
  cases hValues : valuesOf name ps.pairs with
  | nil => simp [hValues, entryOf, collectValues]
  | cons value values =>
      cases values <;>
        simp [hValues, entryOf, collectValues]

------------------------------------------------------------
-- Renderings
------------------------------------------------------------

/-
  A type as an attribute names it: with or without the
  address of its vocabulary.
-/
def NamesType
    (type : TypeName)
    (itemtype : String) : Prop :=
  ∃ address : List Char,
    itemtype.toList = address ++ type.name.toList ∧
      (∀ c ∈ address, isSpace c = false) ∧
        (address = [] ∨
          ∃ front,
            address = front ++ ['/'] ∨
              address = front ++ ['#'])

/- An element without attributes of the vocabulary. -/
def Vocabulary.plainTag
    (voc : Vocabulary)
    (tag : Tag) : Bool :=
  !tag.has voc.scopeAttr && !tag.has voc.nameAttr

/- Nodes without structured data. -/
def Vocabulary.plainForest
    (voc : Vocabulary) : Forest → Bool
| .nil => true
| .text _ _ rest => voc.plainForest rest
| .element tag children rest =>
    voc.plainTag tag && voc.plainForest children &&
      voc.plainForest rest

section Renders

variable (voc : Vocabulary)

/- The attributes that the text of an element overrides. -/
variable (readable : Tag → Prop)

/- The attributes of a property with a text value. -/
structure TextTag
    (name : PropName)
    (value : TrimmedText)
    (tag : Tag) : Prop where
  name : tag.attr voc.nameAttr = some name.name
  content : tag.attr "content" = some value.text
  closed : tag.has voc.scopeAttr = false
  readable : readable tag

/- The attributes of an element that opens an item. -/
structure ItemTag
    (type : TypeName)
    (tag : Tag) : Prop where
  opens : tag.has voc.scopeAttr = true
  type :
    ∃ itemtype,
      tag.attr voc.typeAttr = some itemtype ∧
        NamesType type itemtype

/- Nodes that render properties in order. -/
inductive Renders : Props → Forest → Prop
  | nil : Renders .nil .nil
  | string
      {ps : Props}
      {kind : StringKind}
      {s : String}
      {rest : Forest}
      (hRest : Renders ps rest) :
      Renders ps (.text kind s rest)
  | wrapper
      {ps ps' : Props}
      {tag : Tag}
      {children rest : Forest}
      (hPlain : voc.plainTag tag = true)
      (hChildren : Renders ps children)
      (hRest : Renders ps' rest) :
      Renders (ps.append ps') (.element tag children rest)
  | text
      {name : PropName}
      {value : TrimmedText}
      {ps : Props}
      {tag : Tag}
      {children rest : Forest}
      (hTag : TextTag voc readable name value tag)
      (hChildren : voc.plainForest children = true)
      (hRest : Renders ps rest) :
      Renders (.text name value ps)
        (.element tag children rest)
  | item
      {name : PropName}
      {type : TypeName}
      {ps ps' : Props}
      {tag : Tag}
      {children rest : Forest}
      (hName : tag.attr voc.nameAttr = some name.name)
      (hTag : ItemTag voc type tag)
      (hChildren : Renders ps children)
      (hRest : Renders ps' rest) :
      Renders (.item name type ps ps')
        (.element tag children rest)

/- A document whose only structured data is one item. -/
inductive RendersDocument : Item → Forest → Prop
  | here
      {type : TypeName}
      {ps : Props}
      {tag : Tag}
      {children rest : Forest}
      (hTag : ItemTag voc type tag)
      (hChildren : Renders voc readable ps children)
      (hRest : voc.plainForest rest = true) :
      RendersDocument ⟨type, ps⟩
        (.element tag children rest)
  | string
      {item : Item}
      {kind : StringKind}
      {s : String}
      {rest : Forest}
      (hRest : RendersDocument item rest) :
      RendersDocument item (.text kind s rest)
  | before
      {item : Item}
      {tag : Tag}
      {children rest : Forest}
      (hPlain : voc.plainTag tag = true)
      (hChildren : voc.plainForest children = true)
      (hRest : RendersDocument item rest) :
      RendersDocument item (.element tag children rest)
  | inside
      {item : Item}
      {tag : Tag}
      {children rest : Forest}
      (hPlain : voc.plainTag tag = true)
      (hChildren : RendersDocument item children)
      (hRest : voc.plainForest rest = true) :
      RendersDocument item (.element tag children rest)

/-
  The vocabulary reads what a rendering writes: the names as
  they are and the texts from the content attributes.
-/
structure Vocabulary.Reads : Prop where
  key : ∀ name, PlainName name → voc.key name = name
  text :
    ∀ e text,
      readable e.tag →
        e.tag.attr "content" = some text →
          voc.text e = stripText text

end Renders

------------------------------------------------------------
-- Reading a Rendering
------------------------------------------------------------

/- The short name of a type in any vocabulary. -/
theorem shortType_of_namesType
    {type : TypeName}
    {itemtype : String}
    (hNames : NamesType type itemtype) :
    shortType (some itemtype) = some type.name := by
  rcases hNames with ⟨address, hChars, hSpace, hEnd⟩
  rcases type.plain with ⟨⟨hNonempty, hWord⟩, hSlash, hHash⟩
  have hName := toList_ne_nil hNonempty
  have hSome : itemtype ≠ "" := by
    intro hEmpty
    subst hEmpty
    have hNil := (List.append_eq_nil_iff.mp hChars.symm).2
    exact hName hNil
  have hIsWord : IsWord itemtype := by
    refine ⟨hSome, ?_⟩
    intro c hMem
    rw [hChars] at hMem
    rcases List.mem_append.mp hMem with hFront | hTail
    · exact hSpace c hFront
    · exact hWord c hTail
  have hAddress :
      lastPiece '#' (lastPiece '/' address) = [] := by
    rcases hEnd with hNil | ⟨front, hSlashEnd | hHashEnd⟩
    · rw [hNil, lastPiece_nil, lastPiece_nil]
    · rw [hSlashEnd, lastPiece_concat, lastPiece_nil]
    · rw [hHashEnd, lastPiece_append (by decide),
        lastPiece_concat]
  simp only [shortType, if_neg hSome,
    words_of_word hIsWord, List.head?_cons,
    Option.getD_some]
  rw [hChars, rstripChar_append hSlash hName,
    lastPiece_append hSlash, lastPiece_append hHash,
    hAddress, List.nil_append, if_neg hName,
    String.ofList_toList]

theorem shortType_of_plainName
    {name : String}
    (hPlain : PlainName name) :
    shortType (some name) = some name := by
  have hNames : NamesType ⟨name, hPlain⟩ name :=
    ⟨[], rfl, by simp, Or.inl rfl⟩
  exact shortType_of_namesType hNames

/- The names of a property element with one name. -/
theorem names_of_attr
    {voc : Vocabulary}
    {readable : Tag → Prop}
    {tag : Tag}
    {name : PropName}
    (hReads : voc.Reads readable)
    (hName : tag.attr voc.nameAttr = some name.name) :
    voc.names tag = [name.name] := by
  rw [Vocabulary.names, hName, Option.getD_some,
    words_of_word name.plain.1, List.map_cons,
    List.map_nil, hReads.key name.name name.plain]

section Reading

variable {voc : Vocabulary} {readable : Tag → Prop}
variable {parents : List (Path × Tag)} {path : Path}

theorem jsonBuilder_text
    (s : String) : jsonBuilder.text s = .str s := rfl

/- Nodes without structured data assign nothing. -/
theorem walk_plain
    {f : Forest}
    (hPlain : voc.plainForest f = true)
    (parents : List (Path × Tag))
    (path : Path)
    (i : Nat)
    (obj : Obj Json) :
    walk voc jsonBuilder parents path i f obj = obj := by
  induction f generalizing parents path i obj with
  | nil => rfl
  | text _ _ rest ih =>
      exact ih hPlain parents path (i + 1) obj
  | element tag children rest ihChildren ihRest =>
      simp only [Vocabulary.plainForest,
        Vocabulary.plainTag, Bool.and_eq_true,
        Bool.not_eq_true'] at hPlain
      rcases hPlain with
        ⟨⟨⟨hClosed, hNone⟩, hChildren⟩, hRest⟩
      simp [walk, Vocabulary.opens, hClosed, hNone,
        ihChildren hChildren, ihRest hRest]

/- The walk over a rendering assigns its properties. -/
theorem walk_renders
    {ps : Props}
    {f : Forest}
    (hReads : voc.Reads readable)
    (hRenders : Renders voc readable ps f)
    (parents : List (Path × Tag))
    (path : Path)
    (i : Nat)
    (obj : Obj Json) :
    walk voc jsonBuilder parents path i f obj =
      ps.pairs.foldl (fun obj p => assign p.1 p.2 obj)
        obj := by
  induction hRenders generalizing parents path i obj with
  | nil => rfl
  | string _ ih => exact ih parents path (i + 1) obj
  | @wrapper ps ps' tag children rest hPlain _ _
      ihChildren ihRest =>
      simp only [Vocabulary.plainTag, Bool.and_eq_true,
        Bool.not_eq_true'] at hPlain
      simp [walk, Vocabulary.opens, hPlain.1, hPlain.2,
        ihChildren, ihRest, pairs_append]
  | @text name value ps tag children rest hTag hChildren _
      ih =>
      have hNames := names_of_attr hReads hTag.name
      have hHas : tag.has voc.nameAttr = true := by
        rw [Tag.has, hTag.name]
        rfl
      have hText :
          ∀ here inside,
            voc.text ⟨here, tag, children, inside⟩ =
              value.text := by
        intro here inside
        rw [hReads.text _ value.text hTag.readable
          hTag.content, value.trimmed]
      simp [walk, Vocabulary.opens, hTag.closed, hHas,
        hNames, hText, walk_plain hChildren, ih, assignAll,
        Props.pairs, jsonBuilder_text]
  | @item name type ps ps' tag children rest hName hTag _ _
      ihChildren ihRest =>
      have hNames := names_of_attr hReads hName
      have hHas : tag.has voc.nameAttr = true := by
        rw [Tag.has, hName]
        rfl
      rcases hTag.type with ⟨itemtype, hAttr, hType⟩
      have hTyped :
          typedObj voc jsonBuilder tag =
            [("@type", .one (.str type.name))] := by
        rw [typedObj, hAttr, shortType_of_namesType hType]
        rfl
      have hOpens : voc.opens tag = true := hTag.opens
      simp [walk, hOpens, hHas, hNames, hTyped, ihChildren,
        ihRest, item_foldl_assign, assignAll, Props.pairs]

/- Nodes without structured data hold no item. -/
theorem direct_plain
    {f : Forest}
    (hPlain : voc.plainForest f = true)
    (parents : List (Path × Tag))
    (path : Path)
    (i : Nat) :
    (f.direct voc.opens parents path i).filter
        (fun e => voc.opens e.tag) = [] := by
  induction f generalizing parents path i with
  | nil => rfl
  | text _ _ rest ih => exact ih hPlain parents path (i + 1)
  | element tag children rest ihChildren ihRest =>
      simp only [Vocabulary.plainForest,
        Vocabulary.plainTag, Bool.and_eq_true,
        Bool.not_eq_true'] at hPlain
      rcases hPlain with ⟨⟨⟨hClosed, _⟩, hChildren⟩, hRest⟩
      have hOpens : voc.opens tag = false := hClosed
      simp [Forest.direct, hOpens, ihChildren hChildren,
        ihRest hRest]

/- The item of a document is all that is extracted. -/
theorem map_direct_document
    {item : Item}
    {f : Forest}
    (hReads : voc.Reads readable)
    (hRenders : RendersDocument voc readable item f)
    (parents : List (Path × Tag))
    (path : Path)
    (i : Nat) :
    ((f.direct voc.opens parents path i).filter
        (fun e => voc.opens e.tag)).map
          (parseItem voc jsonBuilder) =
      [item.toJson] := by
  induction hRenders generalizing parents path i with
  | @here type ps tag children rest hTag hChildren hRest =>
      have hOpens : voc.opens tag = true := hTag.opens
      rcases hTag.type with ⟨itemtype, hAttr, hType⟩
      have hTyped :
          typedObj voc jsonBuilder tag =
            [("@type", .one (.str type.name))] := by
        rw [typedObj, hAttr, shortType_of_namesType hType]
        rfl
      have hItem :
          parseItem voc jsonBuilder
              ⟨i :: path, tag, children, parents⟩ =
            typedObject type ps.pairs := by
        rw [parseItem_eq_walk hOpens,
          walk_renders hReads hChildren]
        exact
          (congrArg (fun obj =>
            jsonBuilder.item (i :: path)
              (ps.pairs.foldl
                (fun obj p => assign p.1 p.2 obj) obj))
            hTyped).trans
            (item_foldl_assign (i :: path) type ps)
      simp [Forest.direct, hOpens, direct_plain hRest,
        hItem, Item.toJson]
  | string _ ih => exact ih parents path (i + 1)
  | @before item tag children rest hPlain hChildren _ ih =>
      simp only [Vocabulary.plainTag, Bool.and_eq_true,
        Bool.not_eq_true'] at hPlain
      have hOpens : voc.opens tag = false := hPlain.1
      simp [Forest.direct, hOpens, direct_plain hChildren,
        ih]
  | @inside item tag children rest hPlain _ hRest ih =>
      simp only [Vocabulary.plainTag, Bool.and_eq_true,
        Bool.not_eq_true'] at hPlain
      have hOpens : voc.opens tag = false := hPlain.1
      simp [Forest.direct, hOpens, direct_plain hRest, ih]

/- Extraction undoes the rendering in a vocabulary. -/
theorem extract_renders
    {item : Item}
    {doc : Forest}
    (hReads : voc.Reads readable)
    (hRenders : RendersDocument voc readable item doc) :
    extract voc jsonBuilder doc = [item.toJson] := by
  rw [extract_eq]
  exact map_direct_document hReads hRenders [] [] 0

end Reading

------------------------------------------------------------
-- The Three Formats
------------------------------------------------------------

/-
  No attribute of the element but `content` holds the value
  of a Microdata property.
-/
def microdataReadable (tag : Tag) : Prop :=
  ∀ attr,
    microdataValueAttrs.lookup tag.name = some attr →
      attr ≠ "content" → tag.attr attr = none

theorem microdata_reads :
    microdata.Reads microdataReadable := by
  constructor
  · intro name _
    rfl
  · intro e text hReadable hContent
    show microdataValue e = stripText text
    unfold microdataValue attrText
    cases hOwn : microdataValueAttrs.lookup e.tag.name with
    | none => simp [hContent]
    | some attr =>
        by_cases hSame : attr = "content"
        · simp [hSame, hContent]
        · simp [hReadable attr hOwn hSame, hContent]

theorem rdfa_reads : rdfa.Reads (fun _ => True) := by
  constructor
  · intro name hPlain
    show (shortType (some name)).getD name = name
    rw [shortType_of_plainName hPlain, Option.getD_some]
  · intro e text _ hContent
    show rdfaValue e = stripText text
    simp [rdfaValue, attrText, hContent]

/- The document renders the item as Microdata. -/
def RendersMicrodata : Item → Forest → Prop :=
  RendersDocument microdata microdataReadable

/- The document renders the item as RDFa. -/
def RendersRdfa : Item → Forest → Prop :=
  RendersDocument rdfa (fun _ => True)

/-
  The only JSON-LD script of the document is a JSON text of
  the item's object.
-/
structure RendersJsonLd
    (python : Interpreter)
    (item : Item)
    (doc : Forest) : Prop where
  script :
    ∃ script kind text,
      doc.all.filter isJsonLdScript = [script] ∧
        script.children = .text kind text .nil ∧
          loads python.loadsDepth (stripText text) =
            .ok item.toJson

theorem flattenJsonLd_typedObject
    (depth : Nat)
    (type : TypeName)
    (ps : Props) :
    flattenJsonLd (depth + 1) (typedObject type ps.pairs) =
      .ok [typedObject type ps.pairs] := by
  have hAbsent :
      ∀ m ∈ collect ps.pairs, m.1 ≠ "@graph" := by
    intro m hMem hSame
    rcases List.mem_map.mp hMem with ⟨name, hName, rfl⟩
    rcases List.mem_map.mp (mem_firsts.mp hName) with
      ⟨p, hPair, hFirst⟩
    apply free_of_mem_pairs hPair
    have hGraph : p.1 = "@graph" := hFirst.trans hSame
    simp [reservedKeys, hGraph]
  have hLookup :
      Json.field "@graph"
          (("@type", .str type.name) :: collect ps.pairs) =
        none := by
    rw [Json.field, List.lookup_eq_none_iff]
    intro m hMem
    rcases List.mem_cons.mp hMem with hHead | hTail
    · subst hHead
      rfl
    · simp [Ne.symm (hAbsent m hTail)]
  simp [typedObject, flattenJsonLd, hLookup]

theorem loads_empty
    (depth : Nat) :
    loads depth "" = .error .valueError := by
  cases depth <;> rfl

theorem extractJsonLd_renders
    {python : Interpreter}
    {item : Item}
    {doc : Forest}
    (hRenders : RendersJsonLd python item doc) :
    extractJsonLd python doc = .ok [item.toJson] := by
  rcases hRenders.script with
    ⟨script, kind, text, hOnly, hChildren, hLoads⟩
  have hRaw : stripText text ≠ "" := by
    intro hEmpty
    rw [hEmpty, loads_empty] at hLoads
    cases hLoads
  have hText : text ≠ "" := by
    intro hEmpty
    subst hEmpty
    exact hRaw rfl
  have hScript : scriptText script = stripText text := by
    simp [scriptText, hChildren, Forest.string, hText]
  have hItems :
      scriptItems python script = .ok [item.toJson] := by
    have hDepth := python.callable
    cases hCall : python.callDepth with
    | zero => omega
    | succ depth =>
        simp only [scriptItems, hScript, if_neg hRaw,
          hLoads, hCall]
        exact
          flattenJsonLd_typedObject depth item.type
            item.props
  rw [extractJsonLd, hOnly]
  simp [hItems, Except.map, bind, Except.bind, pure,
    Except.pure]

/- Collected values are textual. -/
theorem textual_collectValues
    {values : List Json}
    (hTextual : ∀ v ∈ values, v.textual = true) :
    (collectValues values).textual = true := by
  match values with
  | [] => rfl
  | [v] => exact hTextual v List.mem_cons_self
  | v :: v' :: rest =>
      rw [collectValues, Json.textual, Json.textualItems_iff]
      · exact hTextual
      · simp

/- Objects of textual values are textual. -/
theorem textual_typedObject
    {pairs : List (String × Json)}
    (hTextual : ∀ p ∈ pairs, p.2.textual = true)
    (hFree : ∀ p ∈ pairs, p.1 ∉ reservedKeys)
    (type : TypeName) :
    (typedObject type pairs).textual = true := by
  have hKeys :
      (collect pairs).map Prod.fst =
        firsts (pairs.map Prod.fst) := by
    simp [collect, List.map_map, Function.comp_def]
  have hType : "@type" ∉ firsts (pairs.map Prod.fst) := by
    intro hMem
    rcases List.mem_map.mp (mem_firsts.mp hMem) with
      ⟨p, hPair, hName⟩
    apply hFree p hPair
    simp [reservedKeys, hName]
  rw [typedObject, Json.textual, Bool.and_eq_true,
    decide_eq_true_eq, Json.textualMembers_iff,
    List.map_cons, hKeys]
  constructor
  · exact List.nodup_cons.mpr ⟨hType, nodup_firsts _⟩
  · intro m hMem
    rcases List.mem_cons.mp hMem with hHead | hTail
    · subst hHead
      rfl
    · rcases List.mem_map.mp hTail with ⟨name, _, rfl⟩
      apply textual_collectValues
      intro v hValue
      rcases List.mem_map.mp hValue with ⟨p, hPair, rfl⟩
      exact hTextual p (List.mem_of_mem_filter hPair)

theorem textual_pairs
    (ps : Props) :
    ∀ p ∈ ps.pairs, p.2.textual = true := by
  induction ps with
  | nil =>
      intro p hMem
      cases hMem
  | text name value rest ih =>
      intro p hMem
      rcases List.mem_cons.mp hMem with hHead | hTail
      · subst hHead
        rfl
      · exact ih p hTail
  | item name type props rest ihProps ihRest =>
      intro p hMem
      rcases List.mem_cons.mp hMem with hHead | hTail
      · subst hHead
        exact
          textual_typedObject ihProps
            (fun _ => free_of_mem_pairs) type
      · exact ihRest p hTail

theorem textual_toJson
    (item : Item) : item.toJson.textual = true :=
  textual_typedObject (textual_pairs item.props)
    (fun _ => free_of_mem_pairs) item.type

/-
  Every item that the interpreter can nest has a rendering
  as JSON-LD.
-/
def jsonLdDocument (item : Item) : Forest :=
  .element
    { name := "script"
      attrs := [("type", "application/ld+json")] }
    (.text (.contained "script") (dumps item.toJson) .nil)
    .nil

theorem rendersJsonLd_dumps
    {python : Interpreter}
    {item : Item}
    (hNesting : item.toJson.nesting ≤ python.loadsDepth) :
    RendersJsonLd python item (jsonLdDocument item) := by
  constructor
  refine ⟨_, _, _, rfl, rfl, ?_⟩
  rw [Item.toJson, typedObject, stripText_dumps_obj]
  exact loads_dumps (textual_toJson item) hNesting

def cpython : Interpreter where
  loadsDepth := 900
  callDepth := 900
  callable := by decide +kernel
  loadsMessage := fun _ => "Expecting value"

def nameProp : PropName :=
  ⟨"name", by decide +kernel, by decide +kernel⟩

def offersProp : PropName :=
  ⟨"offers", by decide +kernel, by decide +kernel⟩

def productType : TypeName :=
  ⟨"Product", by decide +kernel⟩

def offerType : TypeName := ⟨"Offer", by decide +kernel⟩

/- A product with two names and an offer between them. -/
def product : Item where
  type := productType
  props :=
    .text nameProp ⟨"Widget", by decide⟩
      (.item offersProp offerType
        (.text nameProp ⟨"19.99", by decide⟩ .nil)
        (.text nameProp ⟨"W 1", by decide⟩ .nil))

/- An element with a name in its content attribute. -/
def contentTag (nameAttr text : String) : Tag where
  name := "span"
  attrs := [(nameAttr, "name"), ("content", text)]

def divTag : Tag where
  name := "div"
  attrs := []

def productMicrodata : Forest :=
  .element divTag
    (.element
      { name := "div"
        attrs :=
          [("itemscope", ""),
            ("itemtype", "https://schema.org/Product")] }
      (.element divTag
        (.element (contentTag "itemprop" "Widget") .nil .nil)
        (.element
          { name := "div"
            attrs :=
              [("itemprop", "offers"), ("itemscope", ""),
                ("itemtype", "https://schema.org/Offer")] }
          (.element (contentTag "itemprop" "19.99") .nil .nil)
          (.element (contentTag "itemprop" "W 1") .nil
            .nil)))
      .nil)
    .nil

def productRdfa : Forest :=
  .element
    { name := "div", attrs := [("typeof", "Product")] }
    (.element (contentTag "property" "Widget") .nil
      (.element
        { name := "div"
          attrs :=
            [("property", "offers"), ("typeof", "Offer")] }
        (.element (contentTag "property" "19.99") .nil .nil)
        (.element divTag
          (.element (contentTag "property" "W 1") .nil .nil)
          .nil)))
    .nil

theorem namesType_schemaOrg
    (type : TypeName)
    (itemtype : String)
    (hChars :
      itemtype.toList =
        "https://schema.org/".toList ++ type.name.toList) :
    NamesType type itemtype := by
  have hWord :
      "https://schema.org/".toList.all
          (fun c => !isSpace c) =
        true := by
    decide +kernel
  refine ⟨_, hChars, ?_, Or.inr ?_⟩
  · intro c hMem
    simpa using List.all_eq_true.mp hWord c hMem
  · exact
      ⟨"https://schema.org".toList,
        Or.inl (by decide +kernel)⟩

theorem namesType_bare
    (type : TypeName) : NamesType type type.name :=
  ⟨[], rfl, by simp, Or.inl rfl⟩

theorem textTag_microdata
    (value : TrimmedText) :
    TextTag microdata microdataReadable nameProp value
      (contentTag "itemprop" value.text) := by
  constructor
  · rfl
  · rfl
  · rfl
  · intro attr hLookup
    cases hLookup

theorem textTag_rdfa
    (value : TrimmedText) :
    TextTag rdfa (fun _ => True) nameProp value
      (contentTag "property" value.text) :=
  ⟨rfl, rfl, rfl, trivial⟩

theorem renders_productMicrodata :
    RendersMicrodata product productMicrodata := by
  refine .inside rfl ?_ rfl
  refine .here ⟨rfl, _, rfl, ?_⟩ ?_ rfl
  · exact namesType_schemaOrg productType _ (by decide)
  · refine
      @Renders.wrapper _ _
        (.text nameProp ⟨"Widget", by decide⟩ .nil) _ _ _ _
        rfl (.text (textTag_microdata _) rfl .nil) ?_
    refine .item rfl ⟨rfl, _, rfl, ?_⟩ ?_ ?_
    · exact namesType_schemaOrg offerType _ (by decide)
    · exact .text (textTag_microdata _) rfl .nil
    · exact .text (textTag_microdata _) rfl .nil

theorem renders_productRdfa :
    RendersRdfa product productRdfa := by
  refine .here ⟨rfl, _, rfl, namesType_bare productType⟩ ?_
    rfl
  refine .text (textTag_rdfa _) rfl ?_
  refine .item rfl ⟨rfl, _, rfl, namesType_bare offerType⟩
    ?_ ?_
  · exact .text (textTag_rdfa _) rfl .nil
  · exact
      @Renders.wrapper _ _
        (.text nameProp ⟨"W 1", by decide⟩ .nil) .nil _ _ _
        rfl (.text (textTag_rdfa _) rfl .nil) .nil

end SiteAnalysis.Validator
