import SiteAnalysis.Common.Validators
import Mathlib.Data.List.Count
import Mathlib.Tactic.FinCases

/-
  This file proves which hosts the check of submitted URLs
  turns away.  The check looks for its tokens anywhere in
  the lowered text; an address is local by what its host
  denotes.

  Key definitions include:
    * `HttpUrl`
    * `Host.IsLocal`
    * `Mentions`
    * `Quad.Blocked`

  Key theorems include:
    * `mentions_append_cons`
    * `mentions_quad_iff`
    * `validateNoLocalhost_text`
-/

------------------------------------------------------------
-- Hosts
------------------------------------------------------------

namespace SiteAnalysis

open Python

/- The decimal spelling of a number. -/
def decimal (n : Nat) : List Char :=
  Nat.toDigits 10 n

/- The four octets of an IPv4 address. -/
structure Quad where
  a : Fin 256
  b : Fin 256
  c : Fin 256
  d : Fin 256
  deriving DecidableEq

/- The spelling of an IPv4 address that a URL may have. -/
def Quad.text (q : Quad) : List Char :=
  decimal q.a ++ '.' :: (decimal q.b ++ '.' ::
    (decimal q.c ++ '.' :: decimal q.d))

/- One of the digits 0 to 9 and a to f. -/
def isHex (c : Char) : Bool :=
  c.isDigit || ('a'.val ≤ c.toLower.val &&
    c.toLower.val ≤ 'f'.val)

/- The value of a group of an IPv6 address. -/
def groupValue (group : List Char) : Nat :=
  group.foldl
    (fun value c =>
      16 * value +
        if c.isDigit then c.toNat - '0'.toNat
        else c.toLower.toNat - 'a'.toNat + 10)
    0

/-
  A spelling of an IPv6 address: the groups before `::`, the
  groups after it where it stands, and a last part that is
  spelled as an IPv4 address.
-/
structure Ipv6 where
  before : List (List Char)
  after : Option (List (List Char))
  dotted : Option Quad
  hGroups :
    ∀ group ∈ before ++ after.getD [],
      group ≠ [] ∧ group.length ≤ 4 ∧ group.all isHex

namespace Ipv6

/- The parts after the groups. -/
def dottedText (v : Ipv6) : List (List Char) :=
  match v.dotted with
  | none => []
  | some q => [q.text]

/- The text between the brackets. -/
def text (v : Ipv6) : List Char :=
  match v.after with
  | none => [':'].intercalate (v.before ++ v.dottedText)
  | some after =>
      [':'].intercalate v.before ++ ':' :: ':' ::
        [':'].intercalate (after ++ v.dottedText)

/- The two groups that an IPv4 spelling stands for. -/
def dottedGroups (v : Ipv6) : List Nat :=
  match v.dotted with
  | none => []
  | some q =>
      [256 * q.a.val + q.b.val, 256 * q.c.val + q.d.val]

/- The eight groups of the address. -/
def groups (v : Ipv6) : List Nat :=
  let left := v.before.map groupValue
  let right :=
    (v.after.getD []).map groupValue ++ v.dottedGroups
  left ++ List.replicate (8 - left.length - right.length) 0 ++
    right

end Ipv6

/- The characters that end the host or its parts. -/
def separators : List Char :=
  ['/', '?', '#', '@', '[', ']']

/-
  A name of a host: no part of it ends at a separator or a
  colon, and its last label is no number, so that it spells
  no IPv4 address.
-/
structure HostName where
  text : List Char
  hPlain : ∀ c ∈ text, c ∉ ':' :: separators
  hName : ∃ c ∈ text, c ≠ '.' ∧ c.isDigit = false

/- The host of a URL. -/
inductive Host where
  | name (n : HostName)
  | ipv4 (q : Quad)
  | ipv6 (v : Ipv6)

namespace Host

/- The host as the URL has it. -/
def text : Host → List Char
  | .name n => n.text
  | .ipv4 q => q.text
  | .ipv6 v => '[' :: (v.text ++ [']'])

/-
  The host denotes a local or link-local address: the name
  `localhost`, 127.0.0.0/8, 0.0.0.0, 169.254.0.0/16 or ::1.
-/
def IsLocal : Host → Prop
  | .name n => n.text.map Char.toLower = "localhost".toList
  | .ipv4 q =>
      q.a = 127 ∨ q = ⟨0, 0, 0, 0⟩ ∨
        (q.a = 169 ∧ q.b = 254)
  | .ipv6 v => v.groups = [0, 0, 0, 0, 0, 0, 0, 1]

end Host

------------------------------------------------------------
-- URLs
------------------------------------------------------------

/-
  An http(s) URL in the parts that `urlsplit` tells apart.
  The rest is the path, the query and the fragment.
-/
structure HttpUrl where
  scheme : List Char
  userinfo : Option (List Char)
  host : Host
  port : Option (List Char)
  rest : List Char
  hScheme :
    scheme.map Char.toLower ∈
      ["http".toList, "https".toList]
  hUserinfo :
    ∀ info ∈ userinfo, ∀ c ∈ info, c ∉ ['/', '?', '#']
  hPort : ∀ digits ∈ port, ∀ c ∈ digits, c.isDigit = true
  hRest : ∀ c ∈ rest.head?, c ∈ ['/', '?', '#']

namespace HttpUrl

/- The user's part of the URL, with what ends it. -/
def userinfoText (url : HttpUrl) : List Char :=
  match url.userinfo with
  | none => []
  | some info => info ++ ['@']

/- The port of the URL, with what starts it. -/
def portText (url : HttpUrl) : List Char :=
  match url.port with
  | none => []
  | some digits => ':' :: digits

/- The characters of the URL. -/
def chars (url : HttpUrl) : List Char :=
  (url.scheme ++ [':', '/']) ++ '/' ::
    (url.userinfoText ++
      ((url.host.text ++ url.portText) ++ url.rest))

/- The URL as it is submitted. -/
def text (url : HttpUrl) : String :=
  String.ofList url.chars

end HttpUrl

------------------------------------------------------------
-- Mentioned Tokens
------------------------------------------------------------

/- A blocked token stands in the lowered part. -/
def Mentions (part : List Char) : Prop :=
  ∃ token ∈ blockedTokens,
    token.toList <:+: part.map Char.toLower

theorem validateNoLocalhost_false_iff
    (value : String) :
    validateNoLocalhost value = false ↔
      Mentions value.toList := by
  rw [← Bool.not_eq_true, validateNoLocalhost_iff]
  simp [Mentions]

/- Nothing is mentioned in no text. -/
theorem not_mentions_nil : ¬ Mentions [] := by
  simp [Mentions, blockedTokens]

/- A mention in a part of a text. -/
theorem Mentions.mono
    {part text : List Char}
    (hPart : part <:+: text)
    (hMentions : Mentions part) :
    Mentions text := by
  rcases hMentions with ⟨token, hToken, hInfix⟩
  exact ⟨token, hToken, hInfix.trans (hPart.map _)⟩

/- A token that is mentioned across a separator is on one side. -/
theorem mentions_append_cons
    {c : Char}
    (hSeparator : c ∈ separators)
    (left right : List Char) :
    Mentions (left ++ c :: right) ↔
      Mentions left ∨ Mentions right := by
  constructor
  · rintro ⟨token, hToken, hInfix⟩
    have hAll :
        blockedTokens.all (fun token =>
          separators.all (fun c =>
            c.toLower ∉ token.toList)) = true := by
      decide
    have hAbsent :=
      of_decide_eq_true
        (List.all_eq_true.mp
          (List.all_eq_true.mp hAll token hToken) c
          hSeparator)
    rw [List.map_append, List.map_cons] at hInfix
    rcases infix_of_not_mem hAbsent hInfix with
      hLeft | hRight
    · exact Or.inl ⟨token, hToken, hLeft⟩
    · exact Or.inr ⟨token, hToken, hRight⟩
  · rintro (hLeft | hRight)
    · exact hLeft.mono (List.prefix_append _ _).isInfix
    · exact hRight.mono
        ((List.suffix_cons c right).trans
          (List.suffix_append _ _)).isInfix

theorem mentions_cons
    {c : Char}
    (hSeparator : c ∈ separators)
    (right : List Char) :
    Mentions (c :: right) ↔ Mentions right := by
  have hSplit := mentions_append_cons hSeparator [] right
  rw [List.nil_append] at hSplit
  rw [hSplit]
  exact or_iff_right not_mentions_nil

theorem mentions_concat
    {c : Char}
    (hSeparator : c ∈ separators)
    (left : List Char) :
    Mentions (left ++ [c]) ↔ Mentions left := by
  rw [mentions_append_cons hSeparator]
  exact or_iff_left not_mentions_nil

------------------------------------------------------------
-- Ports
------------------------------------------------------------

theorem toLower_of_isDigit
    {c : Char}
    (hDigit : c.isDigit = true) :
    c.toLower = c := by
  have hRange : '0'.val ≤ c.val ∧ c.val ≤ '9'.val := by
    simpa [Char.isDigit] using hDigit
  unfold Char.toLower
  rw [dif_neg]
  intro hUpper
  have hTop := UInt32.le_trans hUpper.1 hRange.2
  exact absurd hTop (by decide)

/- No token is a part of a number. -/
theorem not_infix_digits
    {token : String}
    {digits : List Char}
    (hToken : token ∈ blockedTokens)
    (hDigits : ∀ c ∈ digits, c.isDigit = true) :
    ¬ token.toList <:+: digits := by
  intro hInfix
  have hOther :
      ∀ token ∈ blockedTokens,
        token.toList.any (fun c => !c.isDigit) = true := by
    decide
  rcases List.any_eq_true.mp (hOther token hToken) with
    ⟨c, hMem, hNot⟩
  have hDigit := hDigits c (hInfix.subset hMem)
  rw [hDigit] at hNot
  contradiction

/- A token with colons has two of them. -/
theorem not_infix_port
    {token : String}
    {left digits : List Char}
    (hToken : token ∈ blockedTokens)
    (hColon : ':' ∈ token.toList)
    (hLeft : ':' ∉ left)
    (hDigits : ∀ c ∈ digits, c.isDigit = true) :
    ¬ token.toList <:+: left ++ ':' :: digits := by
  intro hInfix
  have hTwo :
      ∀ token ∈ blockedTokens,
        ':' ∈ token.toList → token.toList.count ':' = 2 := by
    decide
  have hCount := hInfix.sublist.count_le ':'
  have hNone : ':' ∉ digits := by
    intro hMem
    exact absurd (hDigits ':' hMem) (by decide)
  rw [hTwo token hToken hColon, List.count_append,
    List.count_cons_self, List.count_eq_zero.mpr hNone,
    List.count_eq_zero.mpr hLeft] at hCount
  omega

theorem eq_colon_of_toLower
    {c : Char}
    (hLower : c.toLower = ':') :
    c = ':' := by
  unfold Char.toLower at hLower
  split at hLower
  · rename_i hUpper
    have hBelow := UInt32.le_iff_toNat_le.mp hUpper.1
    have hAbove := UInt32.le_iff_toNat_le.mp hUpper.2
    have hValue :=
      congrArg (fun c => c.val.toNat) hLower
    simp only [UInt32.toNat_add] at hValue
    have hShift :
        ('a'.val - 'A'.val).toNat = 32 := rfl
    have hA : 'A'.val.toNat = 65 := rfl
    have hZ : 'Z'.val.toNat = 90 := rfl
    have hTarget : ':'.val.toNat = 58 := rfl
    omega
  · exact hLower

theorem not_mem_lowered
    {left : List Char}
    (hLeft : ':' ∉ left) :
    ':' ∉ left.map Char.toLower := by
  intro hMem
  rcases List.mem_map.mp hMem with ⟨c, hIn, hLower⟩
  have hSame : c = ':' := eq_colon_of_toLower hLower
  exact hLeft (hSame ▸ hIn)

/- A port is no part of what is mentioned. -/
theorem mentions_append_port
    {left digits : List Char}
    (hLeft : ':' ∉ left)
    (hDigits : ∀ c ∈ digits, c.isDigit = true) :
    Mentions (left ++ ':' :: digits) ↔ Mentions left := by
  constructor
  · rintro ⟨token, hToken, hInfix⟩
    rw [List.map_append, List.map_cons] at hInfix
    have hLower : ':'.toLower = ':' := by decide
    have hSame : digits.map Char.toLower = digits :=
      (List.map_congr_left fun c hMem =>
        toLower_of_isDigit (hDigits c hMem)).trans
          (List.map_id' digits)
    rw [hLower, hSame] at hInfix
    by_cases hColon : ':' ∈ token.toList
    · exact
        absurd hInfix
          (not_infix_port hToken hColon
            (not_mem_lowered hLeft) hDigits)
    · rcases infix_of_not_mem hColon hInfix with
        hInLeft | hInDigits
      · exact ⟨token, hToken, hInLeft⟩
      · exact absurd hInDigits (not_infix_digits hToken hDigits)
  · intro hMentions
    exact hMentions.mono (List.prefix_append _ _).isInfix

------------------------------------------------------------
-- Dotted Texts
------------------------------------------------------------

/- The first pieces of a text and of its prefix agree. -/
theorem prefix_split_iff
    {c : Char}
    {head tail left right : List Char}
    (hHead : c ∉ head)
    (hLeft : c ∉ left) :
    head ++ c :: tail <+: left ++ c :: right ↔
      head = left ∧ tail <+: right := by
  induction head generalizing left with
  | nil =>
      cases left with
      | nil => simp [List.cons_prefix_cons]
      | cons b left =>
          have hNe : c ≠ b := by
            intro hSame
            exact hLeft (hSame ▸ List.mem_cons_self)
          simp [List.cons_prefix_cons, hNe]
  | cons h head ih =>
      cases left with
      | nil =>
          have hNe : h ≠ c := by
            intro hSame
            exact hHead (hSame ▸ List.mem_cons_self)
          simp [List.cons_prefix_cons, hNe]
      | cons b left =>
          have hRest :=
            ih
              (fun hMem =>
                hHead (List.mem_cons_of_mem _ hMem))
              (fun hMem =>
                hLeft (List.mem_cons_of_mem _ hMem))
          rw [List.cons_append, List.cons_append,
            List.cons_prefix_cons, hRest, List.cons.injEq,
            and_assoc]

/-
  A text with a dot stands in another from the end of its
  first piece on, or after its first dot.
-/
theorem infix_split_iff
    {c : Char}
    {head tail left right : List Char}
    (hHead : c ∉ head)
    (hLeft : c ∉ left) :
    head ++ c :: tail <:+: left ++ c :: right ↔
      (head <:+ left ∧ tail <+: right) ∨
        head ++ c :: tail <:+: right := by
  induction left with
  | nil =>
      have hPrefix :
          head ++ c :: tail <+: [] ++ c :: right ↔ _ :=
        prefix_split_iff hHead hLeft
      rw [List.nil_append] at hPrefix
      rw [List.nil_append, List.infix_cons_iff, hPrefix,
        List.suffix_nil]
  | cons b left ih =>
      have hPrefix :
          head ++ c :: tail <+: b :: left ++ c :: right ↔ _ :=
        prefix_split_iff hHead hLeft
      have hRest :=
        ih fun hMem => hLeft (List.mem_cons_of_mem _ hMem)
      rw [List.cons_append] at hPrefix
      rw [List.cons_append, List.infix_cons_iff, hPrefix,
        hRest, List.suffix_cons_iff, ← or_assoc,
        or_and_right]

theorem not_infix_of_not_mem
    {c : Char}
    {token text : List Char}
    (hToken : c ∈ token)
    (hText : c ∉ text) :
    ¬ token <:+: text :=
  fun hInfix => hText (hInfix.subset hToken)

theorem not_prefix_of_not_mem
    {c : Char}
    {token text : List Char}
    (hToken : c ∈ token)
    (hText : c ∉ text) :
    ¬ token <+: text :=
  fun hPrefix => hText (hPrefix.subset hToken)

section Pieces

variable {p q r s A B C D : List Char}

/- Four pieces stand in four pieces. -/
theorem infix_four_iff
    (hp : '.' ∉ p) (hq : '.' ∉ q) (hr : '.' ∉ r)
    (hA : '.' ∉ A) (hB : '.' ∉ B)
    (hC : '.' ∉ C) (hD : '.' ∉ D) :
    p ++ '.' :: (q ++ '.' :: (r ++ '.' :: s)) <:+:
        A ++ '.' :: (B ++ '.' :: (C ++ '.' :: D)) ↔
      p <:+ A ∧ q = B ∧ r = C ∧ s <+: D := by
  have hNoD :
      ∀ t : List Char, ¬ r ++ '.' :: t <+: D := fun t =>
    not_prefix_of_not_mem (by simp) hD
  have hNoD' :
      ∀ t : List Char, ¬ q ++ '.' :: t <+: D := fun t =>
    not_prefix_of_not_mem (by simp) hD
  have hNoAll :
      ∀ t : List Char, ¬ p ++ '.' :: t <:+: D := fun t =>
    not_infix_of_not_mem (by simp) hD
  rw [infix_split_iff hp hA, infix_split_iff hp hB,
    infix_split_iff hp hC, prefix_split_iff hq hB,
    prefix_split_iff hr hC, prefix_split_iff hq hC]
  simp [hNoD, hNoD', hNoAll]

/- Two pieces and their dots stand in four pieces. -/
theorem infix_two_iff
    (hp : '.' ∉ p) (hq : '.' ∉ q)
    (hA : '.' ∉ A) (hB : '.' ∉ B)
    (hC : '.' ∉ C) (hD : '.' ∉ D) :
    p ++ '.' :: (q ++ ['.']) <:+:
        A ++ '.' :: (B ++ '.' :: (C ++ '.' :: D)) ↔
      (p <:+ A ∧ q = B) ∨ (p <:+ B ∧ q = C) := by
  have hNoD : ¬ q ++ ['.'] <+: D :=
    not_prefix_of_not_mem (by simp) hD
  have hNoAll : ¬ p ++ '.' :: (q ++ ['.']) <:+: D :=
    not_infix_of_not_mem (by simp) hD
  rw [infix_split_iff hp hA, infix_split_iff hp hB,
    infix_split_iff hp hC, prefix_split_iff hq hB,
    prefix_split_iff hq hC]
  simp [hNoD, hNoAll]

end Pieces

------------------------------------------------------------
-- IPv4 Addresses
------------------------------------------------------------

/- The addresses whose spelling has a blocked token in it. -/
def Quad.Blocked (q : Quad) : Prop :=
  (q.a = 127 ∧ q.b = 0 ∧ q.c = 0 ∧
      ['1'] <+: decimal q.d) ∨
    (10 ∣ q.a.val ∧ q.b = 0 ∧ q.c = 0 ∧ q.d = 0) ∨
    (q.a = 169 ∧ q.b = 254) ∨ (q.b = 169 ∧ q.c = 254)

theorem isDigit_of_mem_decimal
    (n : Fin 256) :
    ∀ c ∈ decimal n, c.isDigit = true := by
  have hAll :
      ∀ n : Fin 256, (decimal n).all Char.isDigit = true := by
    decide +kernel
  exact List.all_eq_true.mp (hAll n)

theorem not_mem_decimal
    {c : Char}
    (hOther : c.isDigit = false)
    (n : Fin 256) :
    c ∉ decimal n := by
  intro hMem
  rw [isDigit_of_mem_decimal n c hMem] at hOther
  contradiction

/- An address is spelled in digits and dots. -/
theorem not_mem_quad
    {c : Char}
    (hDot : c ≠ '.')
    (hOther : c.isDigit = false)
    (q : Quad) :
    c ∉ q.text := by
  simp [Quad.text, hDot, not_mem_decimal hOther]

theorem toLower_quad
    (q : Quad) :
    q.text.map Char.toLower = q.text := by
  apply (List.map_congr_left ?_).trans (List.map_id' q.text)
  intro c hMem
  by_cases hDot : c = '.'
  · subst hDot
    rfl
  · cases hDigit : c.isDigit with
    | true => exact toLower_of_isDigit hDigit
    | false => exact absurd hMem (not_mem_quad hDot hDigit q)

theorem suffix_127_iff :
    ∀ n : Fin 256,
      ['1', '2', '7'] <:+ decimal n ↔ n = 127 := by
  decide +kernel

theorem suffix_169_iff :
    ∀ n : Fin 256,
      ['1', '6', '9'] <:+ decimal n ↔ n = 169 := by
  decide +kernel

theorem suffix_0_iff :
    ∀ n : Fin 256, ['0'] <:+ decimal n ↔ 10 ∣ n.val := by
  decide +kernel

theorem prefix_0_iff :
    ∀ n : Fin 256, ['0'] <+: decimal n ↔ n = 0 := by
  decide +kernel

theorem eq_0_iff :
    ∀ n : Fin 256, ['0'] = decimal n ↔ n = 0 := by
  decide +kernel

theorem eq_254_iff :
    ∀ n : Fin 256,
      ['2', '5', '4'] = decimal n ↔ n = 254 := by
  decide +kernel

/- What the check finds in an IPv4 address. -/
theorem mentions_quad_iff
    (q : Quad) :
    Mentions q.text ↔ q.Blocked := by
  have hDot : ∀ n : Fin 256, '.' ∉ decimal n :=
    not_mem_decimal (by decide)
  have hLocalhost :
      ¬ "localhost".toList <:+: q.text :=
    not_infix_of_not_mem (c := 'l') (by decide)
      (not_mem_quad (by decide) (by decide) q)
  have hColons : ¬ "::1".toList <:+: q.text :=
    not_infix_of_not_mem (c := ':') (by decide)
      (not_mem_quad (by decide) (by decide) q)
  have hLoopback :
      "127.0.0.1".toList <:+: q.text ↔
        q.a = 127 ∧ q.b = 0 ∧ q.c = 0 ∧
          ['1'] <+: decimal q.d := by
    rw [← suffix_127_iff, ← eq_0_iff, ← eq_0_iff]
    exact
      infix_four_iff (p := ['1', '2', '7']) (q := ['0'])
        (r := ['0']) (s := ['1']) (by decide) (by decide)
        (by decide) (hDot _) (hDot _) (hDot _) (hDot _)
  have hZero :
      "0.0.0.0".toList <:+: q.text ↔
        10 ∣ q.a.val ∧ q.b = 0 ∧ q.c = 0 ∧ q.d = 0 := by
    rw [← suffix_0_iff, ← eq_0_iff, ← eq_0_iff,
      ← prefix_0_iff]
    exact
      infix_four_iff (p := ['0']) (q := ['0'])
        (r := ['0']) (s := ['0']) (by decide) (by decide)
        (by decide) (hDot _) (hDot _) (hDot _) (hDot _)
  have hLinkLocal :
      "169.254.".toList <:+: q.text ↔
        (q.a = 169 ∧ q.b = 254) ∨
          (q.b = 169 ∧ q.c = 254) := by
    rw [← suffix_169_iff, ← suffix_169_iff, ← eq_254_iff,
      ← eq_254_iff]
    exact
      infix_two_iff (p := ['1', '6', '9'])
        (q := ['2', '5', '4']) (by decide) (by decide)
        (hDot _) (hDot _) (hDot _) (hDot _)
  unfold Mentions Quad.Blocked
  rw [toLower_quad, ← hLoopback, ← hZero, ← hLinkLocal]
  simp only [blockedTokens, List.mem_cons, List.not_mem_nil,
    or_false, exists_eq_or_imp, exists_eq_left, hLocalhost,
    hColons, false_or]

------------------------------------------------------------
-- Rejected URLs
------------------------------------------------------------

/- Nothing is mentioned in front of the authority. -/
theorem not_mentions_scheme
    {scheme : List Char}
    (hScheme :
      scheme.map Char.toLower ∈
        ["http".toList, "https".toList]) :
    ¬ Mentions (scheme ++ [':', '/']) := by
  rintro ⟨token, hToken, hInfix⟩
  have hNone :
      ∀ lowered ∈ ["http".toList, "https".toList],
        ∀ token ∈ blockedTokens,
          isInfix token.toList (lowered ++ [':', '/']) =
            false := by
    decide
  have hNot := hNone _ hScheme token hToken
  rw [← Bool.not_eq_true, isInfix_iff] at hNot
  apply hNot
  rw [List.map_append] at hInfix
  exact hInfix

/- What is mentioned in a host and its port is in the host. -/
theorem mentions_host_port
    (url : HttpUrl) :
    Mentions (url.host.text ++ url.portText) ↔
      Mentions url.host.text := by
  cases hPort : url.port with
  | none => simp [HttpUrl.portText, hPort]
  | some digits =>
      have hDigits := url.hPort digits hPort
      have hText : url.portText = ':' :: digits := by
        simp [HttpUrl.portText, hPort]
      rw [hText]
      cases hHost : url.host with
      | name n =>
          apply mentions_append_port ?_ hDigits
          intro hMem
          exact n.hPlain ':' hMem List.mem_cons_self
      | ipv4 q =>
          apply mentions_append_port ?_ hDigits
          exact not_mem_quad (by decide) (by decide) q
      | ipv6 v =>
          have hEmpty : Mentions (':' :: digits) ↔ False := by
            have hPort :=
              mentions_append_port List.not_mem_nil hDigits
            rw [List.nil_append] at hPort
            rw [hPort]
            exact iff_false_intro not_mentions_nil
          have hEnd :
              Host.text (.ipv6 v) ++ ':' :: digits =
                ('[' :: v.text) ++ ']' :: (':' :: digits) := by
            simp [Host.text]
          have hHostEnd :
              Host.text (.ipv6 v) =
                ('[' :: v.text) ++ [']'] := by
            simp [Host.text]
          rw [hEnd, mentions_append_cons (by decide), hEmpty,
            or_false, hHostEnd, mentions_concat (by decide)]

theorem mentions_rest
    {left rest : List Char}
    (hRest : ∀ c ∈ rest.head?, c ∈ ['/', '?', '#']) :
    Mentions (left ++ rest) ↔
      Mentions left ∨ Mentions rest := by
  cases rest with
  | nil => simp [not_mentions_nil]
  | cons c rest =>
      have hSeparator : c ∈ separators :=
        List.mem_append_left ['@', '[', ']']
          (hRest c rfl)
      rw [mentions_append_cons hSeparator,
        mentions_cons hSeparator]

theorem mentions_userinfo
    (url : HttpUrl)
    (right : List Char) :
    Mentions (url.userinfoText ++ right) ↔
      Mentions (url.userinfo.getD []) ∨ Mentions right := by
  cases hInfo : url.userinfo with
  | none =>
      simp [HttpUrl.userinfoText, hInfo, not_mentions_nil]
  | some info =>
      have hText :
          url.userinfoText ++ right = info ++ '@' :: right := by
        simp [HttpUrl.userinfoText, hInfo]
      rw [hText, mentions_append_cons (by decide),
        Option.getD_some]

/-
  A URL is turned away when a token stands in its host or in
  one of its other parts.
-/
theorem rejected_iff
    (url : HttpUrl) :
    validateNoLocalhost url.text = false ↔
      Mentions url.host.text ∨
        Mentions (url.userinfo.getD []) ∨
        Mentions url.rest := by
  rw [validateNoLocalhost_false_iff, HttpUrl.text,
    String.toList_ofList, HttpUrl.chars,
    mentions_append_cons (by decide), mentions_userinfo,
    mentions_rest url.hRest, mentions_host_port]
  have hScheme := not_mentions_scheme url.hScheme
  tauto

/- The name `localhost` is a blocked token. -/
theorem mentions_localhost
    {n : HostName}
    (hLocal :
      n.text.map Char.toLower = "localhost".toList) :
    Mentions n.text :=
  ⟨"localhost", List.mem_cons_self,
    hLocal ▸ List.infix_rfl⟩

/- The local IPv4 addresses that the check does not find. -/
theorem blocked_of_local
    {q : Quad}
    (hLocal : Host.IsLocal (.ipv4 q)) :
    q.Blocked ∨ q.a = 127 := by
  rcases hLocal with hLoop | hZero | hLink
  · exact Or.inr hLoop
  · subst hZero
    exact Or.inl (Or.inr (Or.inl (by decide)))
  · exact Or.inl (Or.inr (Or.inr (Or.inl hLink)))

theorem mentions_loopback6
    {v : Ipv6}
    (hText : v.text = "::1".toList) :
    Mentions (Host.text (.ipv6 v)) := by
  refine ⟨"::1", by decide, ?_⟩
  rw [Host.text, hText]
  decide

/- `http://127.0.0.2/` -/
def otherLoopback : HttpUrl where
  scheme := "http".toList
  userinfo := none
  host := .ipv4 ⟨127, 0, 0, 2⟩
  port := none
  rest := ['/']
  hScheme := by decide
  hUserinfo := by simp
  hPort := by simp
  hRest := by simp

/- `http://example.com/localhost` -/
def localhostPath : HttpUrl where
  scheme := "http".toList
  userinfo := none
  host :=
    .name
      { text := "example.com".toList
        hPlain := by simp [separators]
        hName := ⟨'e', by simp, by decide, rfl⟩ }
  port := none
  rest := "/localhost".toList
  hScheme := by decide
  hUserinfo := by simp
  hPort := by simp
  hRest := by simp

end SiteAnalysis
