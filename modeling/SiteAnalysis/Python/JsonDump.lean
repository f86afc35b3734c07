import SiteAnalysis.Python.JsonText
import SiteAnalysis.Python.Text

/-
  This file defines `json.dumps` on the values that documents
  are made of, and proves that `json.loads` undoes it.

  A textual value is built from strings, arrays and objects
  with different keys.

  Key definitions include:
    * `dump`
    * `Json.textual`
    * `Json.nesting`

  Key theorems include:
    * `stringBody_quote`
    * `scanValue_dump`
    * `loads_dumps`
-/

------------------------------------------------------------
-- Writing Strings
------------------------------------------------------------

namespace Python

/- The two-character escapes. -/
def escapes : List (Char × Char) :=
  [('\\', '\\'), ('"', '"'), (Char.ofNat 8, 'b'),
    (Char.ofNat 12, 'f'), ('\n', 'n'), ('\r', 'r'),
    ('\t', 't')]

def hexChar (n : Nat) : Char :=
  if n < 10 then
    Char.ofNat ('0'.toNat + n)
  else
    Char.ofNat ('a'.toNat + (n - 10))

def escapeChar (c : Char) : List Char :=
  match escapes.lookup c with
  | some e => ['\\', e]
  | none =>
      if c.toNat < 0x20 then
        ['\\', 'u', '0', '0', hexChar (c.toNat / 16),
          hexChar (c.toNat % 16)]
      else
        [c]

def escapeChars : List Char → List Char
| [] => []
| c :: cs => escapeChar c ++ escapeChars cs

/- A string between quotes. -/
def quote (s : String) : List Char :=
  '"' :: (escapeChars s.toList ++ ['"'])

------------------------------------------------------------
-- Writing Values
------------------------------------------------------------

mutual

/- `json.dumps(value, ensure_ascii=False)` -/
def dump : Json → List Char
| .str s => quote s
| .arr [] => ['[', ']']
| .arr (v :: vs) => '[' :: (dump v ++ dumpItems vs)
| .obj [] => ['{', '}']
| .obj ((key, v) :: ms) =>
    '{' :: (quote key ++ ':' :: ' ' ::
      (dump v ++ dumpMembers ms))
| _ => []

/- What follows an item of an array. -/
def dumpItems : List Json → List Char
| [] => [']']
| v :: vs => ',' :: ' ' :: (dump v ++ dumpItems vs)

/- What follows a member of an object. -/
def dumpMembers : List (String × Json) → List Char
| [] => ['}']
| (key, v) :: ms =>
    ',' :: ' ' :: (quote key ++ ':' :: ' ' ::
      (dump v ++ dumpMembers ms))

end

def dumps (value : Json) : String :=
  String.ofList (dump value)

namespace Json

mutual

/- Strings, arrays and objects with different keys. -/
def textual : Json → Bool
| .str _ => true
| .arr vs => textualItems vs
| .obj ms =>
    decide ((ms.map Prod.fst).Nodup) && textualMembers ms
| _ => false

def textualItems : List Json → Bool
| [] => true
| v :: vs => textual v && textualItems vs

def textualMembers : List (String × Json) → Bool
| [] => true
| (_, v) :: ms => textual v && textualMembers ms

end

theorem textualItems_iff
    {vs : List Json} :
    textualItems vs = true ↔ ∀ v ∈ vs, v.textual = true := by
  induction vs with
  | nil => simp [textualItems]
  | cons v vs ih => simp [textualItems, ih]

theorem textualMembers_iff
    {ms : List (String × Json)} :
    textualMembers ms = true ↔
      ∀ m ∈ ms, m.2.textual = true := by
  induction ms with
  | nil => simp [textualMembers]
  | cons m ms ih =>
      rcases m with ⟨key, v⟩
      simp [textualMembers, ih]

mutual

/- The depth of the containers of a value. -/
def nesting : Json → Nat
| .arr vs => nestingItems vs + 1
| .obj ms => nestingMembers ms + 1
| _ => 0

def nestingItems : List Json → Nat
| [] => 0
| v :: vs => max (nesting v) (nestingItems vs)

def nestingMembers : List (String × Json) → Nat
| [] => 0
| (_, v) :: ms => max (nesting v) (nestingMembers ms)

end

end Json

------------------------------------------------------------
-- Reading Strings
------------------------------------------------------------

theorem hexDigit_hexChar
    {n : Nat}
    (hDigit : n < 16) :
    hexDigit (hexChar n) = some n := by
  have hAll :
      ∀ m < 16, hexDigit (hexChar m) = some m := by decide
  exact hAll n hDigit

/- An escape that the reader knows. -/
theorem simpleEscape_of_lookup
    {c e : Char}
    (hLookup : escapes.lookup c = some e) :
    e ≠ 'u' ∧ simpleEscape e = some c := by
  have hAll :
      ∀ p ∈ escapes,
        p.2 ≠ 'u' ∧ simpleEscape p.2 = some p.1 := by
    decide
  rcases List.lookup_eq_some_iff.mp hLookup with
    ⟨front, back, hList, _⟩
  apply hAll (c, e)
  rw [hList]
  simp

/- A character that stands for itself. -/
theorem plain_of_lookup
    {c : Char}
    (hLookup : escapes.lookup c = none) :
    c ≠ '"' ∧ c ≠ '\\' := by
  constructor
  · intro hSame
    subst hSame
    exact absurd hLookup (by decide)
  · intro hSame
    subst hSame
    exact absurd hLookup (by decide)

/- Any escape reads as its character. -/
theorem stringUnits_escapeChar
    (c : Char)
    (rest : List Char) :
    stringUnits (escapeChar c ++ rest) =
      (stringUnits rest).map
        (fun p => (c.toNat :: p.1, p.2)) := by
  unfold escapeChar
  cases hLookup : escapes.lookup c with
  | some e =>
      rcases simpleEscape_of_lookup hLookup with
        ⟨hNe, hEscape⟩
      simp only [List.cons_append, List.nil_append]
      rw [stringUnits.eq_def]
      split
      all_goals simp_all
      rename_i hOther hEq
      exact
        absurd hEq.2.symm (hOther e rest hEq.1.symm)
  | none =>
      rcases plain_of_lookup hLookup with ⟨hQuote, hSlash⟩
      by_cases hControl : c.toNat < 0x20
      · have hHigh :=
          hexDigit_hexChar (n := c.toNat / 16) (by omega)
        have hLow :=
          hexDigit_hexChar (n := c.toNat % 16) (by omega)
        have hZero : hexDigit '0' = some 0 := by decide
        have hUnit :
            hexFour '0' '0' (hexChar (c.toNat / 16))
                (hexChar (c.toNat % 16)) =
              some c.toNat := by
          simp only [hexFour, hZero, hHigh, hLow]
          congr 1
          omega
        simp only [if_pos hControl, List.cons_append,
          List.nil_append, stringUnits, hUnit]
      · simp only [if_neg hControl, List.cons_append,
          List.nil_append]
        rw [stringUnits.eq_def]
        split <;> simp_all

theorem stringUnits_escapeChars
    (cs rest : List Char) :
    stringUnits (escapeChars cs ++ '"' :: rest) =
      some (cs.map Char.toNat, rest) := by
  induction cs with
  | nil => simp [escapeChars, stringUnits]
  | cons c cs ih =>
      rw [escapeChars, List.append_assoc,
        stringUnits_escapeChar, ih]
      rfl

/- No character is a surrogate. -/
theorem isHighSurrogate_toNat
    (c : Char) : isHighSurrogate c.toNat = false := by
  have hValid :
      c.toNat < 0xD800 ∨
        0xDFFF < c.toNat ∧ c.toNat < 0x110000 := c.valid
  simp only [isHighSurrogate, decide_eq_false_iff_not]
  omega

theorem joinUnits_toNat
    (cs : List Char) :
    joinUnits (cs.map Char.toNat) = cs := by
  match cs with
  | [] => rfl
  | [c] => simp [joinUnits]
  | c :: c' :: rest =>
      have hRest := joinUnits_toNat (c' :: rest)
      simp only [List.map_cons] at hRest
      simp [joinUnits, isHighSurrogate_toNat, hRest]

/- A written string reads as itself. -/
theorem stringBody_quote
    (s : String)
    (rest : List Char) :
    stringBody (escapeChars s.toList ++ '"' :: rest) =
      some (s, rest) := by
  rw [stringBody, stringUnits_escapeChars]
  simp [joinUnits_toNat]

------------------------------------------------------------
-- Reading Values
------------------------------------------------------------

/- The first character of a value that is no blank. -/
def opensValue (c : Char) : Bool :=
  c = '"' ∨ c = '[' ∨ c = '{'

theorem dump_eq_cons
    {value : Json}
    (hTextual : value.textual = true) :
    ∃ c cs, dump value = c :: cs ∧ opensValue c = true := by
  cases value with
  | str s => exact ⟨'"', _, rfl, rfl⟩
  | arr vs =>
      cases vs with
      | nil => exact ⟨'[', _, rfl, rfl⟩
      | cons v vs => exact ⟨'[', _, rfl, rfl⟩
  | obj ms =>
      cases ms with
      | nil => exact ⟨'{', _, rfl, rfl⟩
      | cons m ms => exact ⟨'{', _, rfl, rfl⟩
  | _ => cases hTextual

/- Nothing is skipped in front of a value. -/
theorem skipBlank_dump
    {value : Json}
    (hTextual : value.textual = true)
    (rest : List Char) :
    skipBlank (dump value ++ rest) = dump value ++ rest := by
  rcases dump_eq_cons hTextual with ⟨c, cs, hDump, hOpens⟩
  have hBlank : isBlank c = false := by
    simp only [opensValue, decide_eq_true_eq] at hOpens
    rcases hOpens with hSame | hSame | hSame <;>
      subst hSame <;> decide
  rw [hDump, skipBlank, List.cons_append,
    List.dropWhile_cons_of_neg (by simp [hBlank])]

/- A blank in front of a value is skipped. -/
theorem skipBlank_blank_dump
    {value : Json}
    (hTextual : value.textual = true)
    (rest : List Char) :
    skipBlank (' ' :: (dump value ++ rest)) =
      dump value ++ rest := by
  rw [skipBlank, List.dropWhile_cons_of_pos (by decide)]
  exact skipBlank_dump hTextual rest

theorem setField_of_not_mem
    {V : Type}
    {key : String}
    {fields : List (String × V)}
    (hAbsent : key ∉ fields.map Prod.fst)
    (value : V) :
    setField key value fields = fields ++ [(key, value)] := by
  induction fields with
  | nil => rfl
  | cons m fields ih =>
      rcases m with ⟨k, old⟩
      simp only [List.map_cons, List.mem_cons, not_or]
        at hAbsent
      rw [setField, if_neg (Ne.symm hAbsent.1),
        ih hAbsent.2, List.cons_append]

/- The scanner reads a written value up to its end. -/
def ScansBack
    (scan : Scanner)
    (value : Json) : Prop :=
  value.textual = true ∧
    ∀ rest, scan (dump value ++ rest) = .ok (value, rest)

section Loops

variable {scan : Scanner}

theorem length_le_dumpItems
    (vs : List Json) :
    vs.length < (dumpItems vs).length := by
  induction vs with
  | nil => simp [dumpItems]
  | cons v vs ih =>
      simp only [dumpItems, List.length_cons,
        List.length_append]
      omega

theorem length_le_dumpMembers
    (ms : List (String × Json)) :
    ms.length < (dumpMembers ms).length := by
  induction ms with
  | nil => simp [dumpMembers]
  | cons m ms ih =>
      rcases m with ⟨key, v⟩
      simp only [dumpMembers, List.length_cons,
        List.length_append]
      omega

/- The loop over the items of a written array. -/
theorem scanItems_dump
    {v : Json}
    {vs : List Json}
    {fuel : Nat}
    (hBack : ∀ u ∈ v :: vs, ScansBack scan u)
    (hFuel : vs.length < fuel)
    (items : List Json)
    (rest : List Char) :
    scanItems scan fuel items
        (dump v ++ (dumpItems vs ++ rest)) =
      .ok (.arr (items ++ v :: vs), rest) := by
  induction vs generalizing v fuel items with
  | nil =>
      cases fuel with
      | zero => omega
      | succ fuel =>
          have hScan := (hBack v List.mem_cons_self).2
          rw [scanItems, hScan]
          rfl
  | cons v' vs ih =>
      cases fuel with
      | zero => omega
      | succ fuel =>
          have hScan := (hBack v List.mem_cons_self).2
          have hNext := hBack v' (by simp)
          have hRest : ∀ u ∈ v' :: vs, ScansBack scan u := by
            intro u hU
            exact hBack u (List.mem_cons_of_mem _ hU)
          have hLess : vs.length < fuel := by
            simpa using hFuel
          have hLoop := ih hRest hLess (items ++ [v])
          rw [scanItems, hScan]
          simp only [dumpItems, List.cons_append,
            List.append_assoc, bind, Except.bind]
          have hComma :
              skipBlank
                  (',' :: ' ' ::
                    (dump v' ++ (dumpItems vs ++ rest))) =
                ',' :: ' ' ::
                  (dump v' ++ (dumpItems vs ++ rest)) := rfl
          simp only [hComma,
            skipBlank_blank_dump hNext.1, hLoop]
          simp

/- One member of a written object, up to the next one. -/
theorem scanMembers_dump
    {key : String}
    {v : Json}
    {ms : List (String × Json)}
    {fuel : Nat}
    {fields : List (String × Json)}
    (hBack : ∀ m ∈ (key, v) :: ms, ScansBack scan m.2)
    (hFuel : ms.length < fuel)
    (hNodup :
      ((fields ++ (key, v) :: ms).map Prod.fst).Nodup)
    (rest : List Char) :
    scanMembers scan fuel fields
        (quote key ++ ':' :: ' ' ::
          (dump v ++ (dumpMembers ms ++ rest))) =
      .ok (.obj (fields ++ (key, v) :: ms), rest) := by
  induction ms generalizing key v fuel fields with
  | nil =>
      cases fuel with
      | zero => omega
      | succ fuel =>
          have hHead := hBack (key, v) List.mem_cons_self
          have hAbsent : key ∉ fields.map Prod.fst := by
            simp only [List.map_append, List.map_cons,
              List.nodup_append] at hNodup
            intro hMem
            exact hNodup.2.2 key hMem key (by simp) rfl
          have hColon :
              ∀ cs, skipBlank (':' :: cs) = ':' :: cs :=
            fun _ => rfl
          simp only [quote, List.cons_append,
            List.append_assoc, List.nil_append, scanMembers,
            stringBody_quote, hColon,
            skipBlank_blank_dump hHead.1, hHead.2, bind,
            Except.bind, dumpMembers,
            setField_of_not_mem hAbsent]
          rfl
  | cons m ms ih =>
      rcases m with ⟨key', v'⟩
      cases fuel with
      | zero => omega
      | succ fuel =>
          have hHead := hBack (key, v) List.mem_cons_self
          have hAbsent : key ∉ fields.map Prod.fst := by
            simp only [List.map_append, List.map_cons,
              List.nodup_append] at hNodup
            intro hMem
            exact hNodup.2.2 key hMem key (by simp) rfl
          have hColon :
              ∀ cs, skipBlank (':' :: cs) = ':' :: cs :=
            fun _ => rfl
          have hComma :
              ∀ cs, skipBlank (',' :: cs) = ',' :: cs :=
            fun _ => rfl
          have hQuote :
              ∀ cs,
                skipBlank (' ' :: (quote key' ++ cs)) =
                  quote key' ++ cs := fun _ => rfl
          have hRest :
              ∀ m ∈ (key', v') :: ms, ScansBack scan m.2 := by
            intro m hM
            exact hBack m (List.mem_cons_of_mem _ hM)
          have hLess : ms.length < fuel := by
            simpa using hFuel
          have hKeys :
              (((fields ++ [(key, v)]) ++
                (key', v') :: ms).map Prod.fst).Nodup := by
            simpa using hNodup
          have hLoop := ih hRest hLess hKeys
          simp only [dumpMembers, List.cons_append,
            List.append_assoc]
          rw [quote]
          simp only [List.cons_append, List.append_assoc,
            List.nil_append, scanMembers,
            stringBody_quote, hColon,
            skipBlank_blank_dump hHead.1, hHead.2, bind,
            Except.bind, hComma, hQuote,
            setField_of_not_mem hAbsent, hLoop]

end Loops

/- A written array is scanned item by item. -/
theorem scanArray_dump
    {depth : Nat}
    {v : Json}
    {vs : List Json}
    (hBack : ∀ u ∈ v :: vs, ScansBack (scanValue depth) u)
    (rest : List Char) :
    scanValue (depth + 1)
        (dump (.arr (v :: vs)) ++ rest) =
      .ok (.arr (v :: vs), rest) := by
  have hHead := (hBack v List.mem_cons_self).1
  have hFuel :
      vs.length <
        (dump v ++ (dumpItems vs ++ rest)).length := by
    have hLength := length_le_dumpItems vs
    simp only [List.length_append]
    omega
  have hLoop := scanItems_dump hBack hFuel [] rest
  simp only [dump, List.cons_append, List.append_assoc,
    scanValue, scanArray, skipBlank_dump hHead]
  rcases dump_eq_cons hHead with ⟨c, cs, hDump, hOpens⟩
  rw [hDump] at hLoop ⊢
  split
  · rename_i hBracket
    simp only [List.cons_append, List.cons.injEq]
      at hBracket
    rw [hBracket.1] at hOpens
    exact absurd hOpens (by decide)
  · exact hLoop

/- A written object is scanned member by member. -/
theorem scanObject_dump
    {depth : Nat}
    {key : String}
    {v : Json}
    {ms : List (String × Json)}
    (hBack :
      ∀ m ∈ (key, v) :: ms,
        ScansBack (scanValue depth) m.2)
    (hNodup : (((key, v) :: ms).map Prod.fst).Nodup)
    (rest : List Char) :
    scanValue (depth + 1)
        (dump (.obj ((key, v) :: ms)) ++ rest) =
      .ok (.obj ((key, v) :: ms), rest) := by
  have hFuel :
      ms.length <
        (quote key ++ ':' :: ' ' ::
          (dump v ++ (dumpMembers ms ++ rest))).length := by
    have hLength := length_le_dumpMembers ms
    simp only [List.length_append, List.length_cons]
    omega
  have hKeys :
      (([] ++ (key, v) :: ms).map Prod.fst).Nodup := hNodup
  have hLoop := scanMembers_dump hBack hFuel hKeys rest
  simp only [dump, List.cons_append, List.append_assoc,
    scanValue, scanObject]
  exact hLoop

mutual

/- The scanner reads every textual value it can nest. -/
theorem scanValue_dump
    (value : Json)
    (depth : Nat)
    (hTextual : value.textual = true)
    (hNesting : value.nesting ≤ depth) :
    ScansBack (scanValue depth) value := by
  refine ⟨hTextual, ?_⟩
  intro rest
  match value with
  | .str s =>
      have hBody := stringBody_quote s rest
      cases depth <;>
        simp [dump, quote, scanValue, scanScalar, hBody]
  | .arr vs =>
      cases depth with
      | zero => cases hNesting
      | succ depth =>
          have hItems :=
            scanValue_dumpItems vs depth
              (by simpa [Json.textual] using hTextual)
              (by simpa [Json.nesting] using hNesting)
          cases vs with
          | nil => rfl
          | cons v vs => exact scanArray_dump hItems rest
  | .obj ms =>
      cases depth with
      | zero => cases hNesting
      | succ depth =>
          simp only [Json.textual, Bool.and_eq_true,
            decide_eq_true_eq] at hTextual
          have hMembers :=
            scanValue_dumpMembers ms depth hTextual.2
              (by simpa [Json.nesting] using hNesting)
          cases ms with
          | nil => rfl
          | cons m ms =>
              exact
                scanObject_dump hMembers hTextual.1 rest
  | .null => cases hTextual
  | .bool _ => cases hTextual
  | .int _ => cases hTextual
  | .float _ => cases hTextual

theorem scanValue_dumpItems
    (vs : List Json)
    (depth : Nat)
    (hTextual : Json.textualItems vs = true)
    (hNesting : Json.nestingItems vs ≤ depth) :
    ∀ u ∈ vs, ScansBack (scanValue depth) u := by
  match vs with
  | [] =>
      intro u hMem
      cases hMem
  | v :: vs =>
      simp only [Json.textualItems, Bool.and_eq_true]
        at hTextual
      simp only [Json.nestingItems] at hNesting
      intro u hMem
      rcases List.mem_cons.mp hMem with hHead | hTail
      · rw [hHead]
        exact
          scanValue_dump v depth hTextual.1 (by omega)
      · exact
          scanValue_dumpItems vs depth hTextual.2
            (by omega) u hTail

theorem scanValue_dumpMembers
    (ms : List (String × Json))
    (depth : Nat)
    (hTextual : Json.textualMembers ms = true)
    (hNesting : Json.nestingMembers ms ≤ depth) :
    ∀ m ∈ ms, ScansBack (scanValue depth) m.2 := by
  match ms with
  | [] =>
      intro m hMem
      cases hMem
  | (key, v) :: ms =>
      simp only [Json.textualMembers, Bool.and_eq_true]
        at hTextual
      simp only [Json.nestingMembers] at hNesting
      intro m hMem
      rcases List.mem_cons.mp hMem with hHead | hTail
      · rw [hHead]
        exact
          scanValue_dump v depth hTextual.1 (by omega)
      · exact
          scanValue_dumpMembers ms depth hTextual.2
            (by omega) m hTail

end

theorem dumpItems_eq_concat
    (vs : List Json) :
    ∃ front, dumpItems vs = front ++ [']'] := by
  induction vs with
  | nil => exact ⟨[], rfl⟩
  | cons v vs ih =>
      rcases ih with ⟨front, hFront⟩
      exact
        ⟨',' :: ' ' :: (dump v ++ front), by
          simp [dumpItems, hFront]⟩

theorem dumpMembers_eq_concat
    (ms : List (String × Json)) :
    ∃ front, dumpMembers ms = front ++ ['}'] := by
  induction ms with
  | nil => exact ⟨[], rfl⟩
  | cons m ms ih =>
      rcases m with ⟨key, v⟩
      rcases ih with ⟨front, hFront⟩
      exact
        ⟨',' :: ' ' :: (quote key ++ ':' :: ' ' ::
            (dump v ++ front)), by
          simp [dumpMembers, hFront]⟩

/- An object has no white space at its ends. -/
theorem stripText_dumps_obj
    (ms : List (String × Json)) :
    stripText (dumps (.obj ms)) = dumps (.obj ms) := by
  have hEnds :
      ∃ middle, dump (.obj ms) = '{' :: (middle ++ ['}']) := by
    cases ms with
    | nil => exact ⟨[], rfl⟩
    | cons m ms =>
        rcases m with ⟨key, v⟩
        rcases dumpMembers_eq_concat ms with ⟨front, hFront⟩
        exact
          ⟨quote key ++ ':' :: ' ' :: (dump v ++ front), by
            simp [dump, hFront]⟩
  rcases hEnds with ⟨middle, hDump⟩
  have hOpen : isSpace '{' = false := by decide
  have hClose : isSpace '}' = false := by decide
  simp [stripText, dumps, strip, hDump, hOpen, hClose]

/- Reading undoes writing. -/
theorem loads_dumps
    {value : Json}
    {depth : Nat}
    (hTextual : value.textual = true)
    (hNesting : value.nesting ≤ depth) :
    loads depth (dumps value) = .ok value := by
  have hScan :=
    (scanValue_dump value depth hTextual hNesting).2 []
  have hBlank := skipBlank_dump hTextual []
  rw [List.append_nil] at hScan hBlank
  simp only [loads, dumps, String.toList_ofList, hBlank,
    hScan, bind, Except.bind]
  rfl

end Python
