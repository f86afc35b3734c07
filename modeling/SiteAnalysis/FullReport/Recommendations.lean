import SiteAnalysis.Python.Arithmetic
import SiteAnalysis.FullReport.Tools

/-
  This file defines the recommendations of a full report: the
  results of the tools are checked against thresholds, and
  each rule that trips adds one text in the language of the
  report.

  Key definitions include:
    * `RecKey`
    * `recommendation`
    * `whenBelow`
    * `whenAbove`
    * `buildRecommendations`

  Key theorems include:
    * `recommendation_ne_allGood`
-/

------------------------------------------------------------
-- Texts
------------------------------------------------------------

namespace SiteAnalysis.FullReport

open Python
open Reports

/- The keys of `REC`. -/
inductive RecKey
  | perfPoor
  | perfMid
  | lcp
  | tbt
  | cls
  | seo
  | bp
  | a11yErrors
  | a11yContrast
  | sslGrade
  | sslExpiry
  | sslVuln
  | links
  | sdMissing
  | sdErrors
  | sdRich
  | allGood
deriving DecidableEq

/- A text with at most one place to fill. -/
inductive Template
  | plain (text : String)
  | filled (before after : String)

/- `template.format(value)` -/
def Template.format
    (value : String) : Template → String
| .plain text => text
| .filled before after => before ++ value ++ after

/- `REC["en"]` without its intro. -/
def english : RecKey → Template
| .perfPoor =>
    .filled
      "Performance is poor ("
      ("/100): enable gzip/brotli compression, remove " ++
        "unused CSS/JS, and serve assets via a CDN.")
| .perfMid =>
    .filled
      "Improve performance ("
      ("/100): defer non-critical JavaScript and " ++
        "optimise/compress images.")
| .lcp =>
    .filled
      "Largest Contentful Paint is slow ("
      ("s): preload the hero image and cut render-blocking " ++
        "resources.")
| .tbt =>
    .filled
      "Reduce Total Blocking Time ("
      ("ms): split long JavaScript tasks and defer " ++
        "third-party scripts.")
| .cls =>
    .filled
      "Reduce layout shift (CLS "
      ("): set explicit width/height on images, ads, and " ++
        "embeds.")
| .seo =>
    .filled
      "Improve SEO ("
      ("/100): add meta descriptions, descriptive titles, " ++
        "and structured data.")
| .bp =>
    .filled
      "Follow best practices ("
      ("/100): serve every resource over HTTPS and update " ++
        "outdated libraries.")
| .a11yErrors =>
    .filled
      "Fix "
      (" accessibility error(s) to reach WCAG compliance " ++
        "(missing labels, alt text, etc.).")
| .a11yContrast =>
    .filled
      "Fix "
      (" colour-contrast issue(s): use a contrast ratio of " ++
        "at least 4.5:1 for text.")
| .sslGrade =>
    .filled
      ("Harden SSL/TLS: disable the old TLS 1.0/1.1 " ++
        "protocols and keep only TLS 1.2/1.3 (current grade ")
      ")."
| .sslExpiry =>
    .filled
      "Renew the SSL certificate — it expires in "
      " days."
| .sslVuln =>
    .filled
      ("Address the detected SSL vulnerabilities " ++
        "immediately: ")
      "."
| .links =>
    .filled
      "Fix "
      " broken link(s) — they hurt user experience and SEO."
| .sdMissing =>
    .plain
      ("Add structured data (Schema.org / JSON-LD): none " ++
        "was found. It unlocks rich results (ratings, FAQs, " ++
        "breadcrumbs) in Google.")
| .sdErrors =>
    .filled
      "Fix "
      (" structured-data error(s) so search engines can " ++
        "parse your Schema.org markup correctly.")
| .sdRich =>
    .plain
      ("Complete your structured data: no schema is " ++
        "rich-result eligible yet. Add the fields Google " ++
        "requires (e.g. image, offers, author).")
| .allGood =>
    .plain
      ("The site is in great shape. Keep monitoring " ++
        "performance, accessibility, security, links, and " ++
        "structured data regularly.")

/- `REC["ar"]` without its intro. -/
def arabic : RecKey → Template
| .perfPoor =>
    .filled
      "الأداء ضعيف ("
      ("/100): فعّل ضغط gzip/brotli، واحذف ملفات CSS/JS غير " ++
        "المستخدمة، واستخدم شبكة CDN.")
| .perfMid =>
    .filled
      "حسّن الأداء ("
      ("/100): أجّل تحميل الـ JavaScript غير الضروري وحسّن " ++
        "واضغط الصور.")
| .lcp =>
    .filled
      "أكبر رسم للمحتوى بطيء ("
      (" ثانية): حمّل صورة الواجهة مسبقاً (preload) وقلّل " ++
        "الموارد المعطّلة للعرض.")
| .tbt =>
    .filled
      "قلّل إجمالي وقت الحجب ("
      (" مللي ثانية): قسّم مهام الـ JavaScript الطويلة " ++
        "وأجّل السكربتات الخارجية.")
| .cls =>
    .filled
      "قلّل إزاحة التخطيط (CLS "
      "): حدّد الأبعاد (width/height) للصور والإعلانات."
| .seo =>
    .filled
      "حسّن الـ SEO ("
      ("/100): أضف وصفاً (meta description) وعناوين واضحة " ++
        "وبيانات منظّمة (structured data).")
| .bp =>
    .filled
      "اتبع أفضل الممارسات ("
      ("/100): قدّم كل الموارد عبر HTTPS وحدّث المكتبات " ++
        "القديمة.")
| .a11yErrors =>
    .filled
      "أصلح "
      (" خطأ في إمكانية الوصول لتحقيق مطابقة WCAG (عناوين " ++
        "ونصوص بديلة مفقودة، إلخ).")
| .a11yContrast =>
    .filled
      "أصلح "
      (" مشكلة تباين لوني: استخدم نسبة تباين 4.5:1 على " ++
        "الأقل للنصوص.")
| .sslGrade =>
    .filled
      ("عزّز أمان SSL/TLS: عطّل بروتوكولات TLS 1.0/1.1 " ++
        "القديمة وأبقِ TLS 1.2/1.3 فقط (التقييم الحالي ")
      ")."
| .sslExpiry =>
    .filled
      "جدّد شهادة SSL — تنتهي خلال "
      " يوم."
| .sslVuln =>
    .filled
      "عالج ثغرات SSL المكتشفة فوراً: "
      "."
| .links =>
    .filled
      "أصلح "
      " رابط مكسور — تؤثر سلباً على تجربة المستخدم و SEO."
| .sdMissing =>
    .plain
      ("أضف بيانات منظمة (Schema.org / JSON-LD): لم يتم " ++
        "العثور على أي منها. فهي تتيح النتائج الغنية " ++
        "(التقييمات، الأسئلة الشائعة، مسار التنقل) في جوجل.")
| .sdErrors =>
    .filled
      "أصلح "
      (" خطأ في البيانات المنظمة حتى تتمكن محركات البحث من " ++
        "قراءة ترميز Schema.org بشكل صحيح.")
| .sdRich =>
    .plain
      ("أكمل بياناتك المنظمة: لا يوجد مخطط مؤهل للنتائج " ++
        "الغنية بعد. أضف الحقول التي يطلبها جوجل (مثل " ++
        "الصورة، العروض، المؤلف).")
| .allGood =>
    .plain
      ("الموقع في حالة ممتازة! استمر في المتابعة الدورية " ++
        "للأداء وإمكانية الوصول والأمان والروابط والبيانات " ++
        "المنظمة.")

/- `REC["ar" if lang == "ar" else "en"][key]`, filled. -/
def recommendation
    (lang : String)
    (key : RecKey)
    (value : String) : String :=
  if lang = "ar" then
    (arabic key).format value
  else
    (english key).format value

------------------------------------------------------------
-- Rules
------------------------------------------------------------

/- `if v is not None and v < bound` -/
def whenBelow
    (repr : Json → String)
    (lang : String)
    (key : RecKey)
    (bound : Int) : Json → Except PyError (List String)
| .null => .ok []
| value => do
    let below ← value.lessThan bound
    pure
      (if below then
        [recommendation lang key (value.toStr repr)]
      else
        [])

/- `if v and v > bound` -/
def whenAbove
    (repr : Json → String)
    (lang : String)
    (key : RecKey)
    (literal : String)
    (bound : PyFloat)
    (value : Json) : Except PyError (List String) :=
  if value.truthy then do
    let above ← value.exceeds literal bound
    pure
      (if above then
        [recommendation lang key (value.toStr repr)]
      else
        [])
  else
    .ok []

/- The two texts on the performance score. -/
def performanceRecs
    (repr : Json → String)
    (lang : String)
    (score : Json) : Except PyError (List String) := do
  let poor ← whenBelow repr lang .perfPoor 50 score
  if poor.isEmpty then
    whenBelow repr lang .perfMid 90 score
  else
    pure poor

def pagespeedRecs
    (repr : Json → String)
    (lang : String)
    (d : List (AnalysisField × Json)) :
    Except PyError (List String) := do
  let perf ←
    performanceRecs repr lang (metric d .performanceScore)
  let lcp ←
    whenAbove repr lang .lcp "float" (.finite (5 / 2))
      (metric d .largestContentfulPaint)
  let tbt ←
    whenAbove repr lang .tbt "int" (.finite 200)
      (metric d .totalBlockingTime)
  let cls ←
    whenAbove repr lang .cls "float" (toDouble (1 / 10))
      (metric d .cumulativeLayoutShift)
  let seo ←
    whenBelow repr lang .seo 90 (metric d .seoScore)
  let bp ←
    whenBelow repr lang .bp 90 (metric d .bestPracticesScore)
  pure (perf ++ lcp ++ tbt ++ cls ++ seo ++ bp)

/- `if n > 0` -/
def whenPositive
    (lang : String)
    (key : RecKey)
    (n : Int) : List String :=
  if 0 < n then
    [recommendation lang key (toString n)]
  else
    []

def accessibilityRecs
    (lang : String)
    (totals : Audits.Totals) : List String :=
  whenPositive lang .a11yErrors totals.totalErrors ++
    whenPositive lang .a11yContrast
      totals.totalContrastErrors

/- `(d.get("grade") or "").upper()` -/
def gradeOf (c : SSLColumns) : String :=
  String.ofList (c.grade.toList.map Char.toUpper)

/- `(d.get("vulnerabilities") or {}).items()` -/
def vulnerabilityItems
    (c : SSLColumns) :
    Except PyError (List (String × Json)) :=
  (c.vulnerabilities.or (.obj [])).items

def gradeRecs
    (lang : String)
    (c : SSLColumns) : List String :=
  if gradeOf c ≠ "" ∧ gradeOf c ∉ ["A+", "A"] then
    [recommendation lang .sslGrade c.grade]
  else
    []

def expiryRecs
    (lang : String)
    (c : SSLColumns) : List String :=
  match c.certExpiresInDays with
  | none => []
  | some days =>
      if days < 30 then
        [recommendation lang .sslExpiry (toString days)]
      else
        []

def vulnerabilityRecs
    (lang : String)
    (items : List (String × Json)) : List String :=
  let vulns :=
    (items.filter (fun item => item.2.truthy)).map Prod.fst
  if vulns.isEmpty then
    []
  else
    [recommendation lang .sslVuln (", ".intercalate vulns)]

def sslRecs
    (lang : String)
    (c : SSLColumns) : Except PyError (List String) := do
  let items ← vulnerabilityItems c
  pure
    (gradeRecs lang c ++ expiryRecs lang c ++
      vulnerabilityRecs lang items)

def linksRecs
    (lang : String)
    (d : LinkSummary) : List String :=
  whenPositive lang .links d.broken

def structuredDataRecs
    (lang : String)
    (d : SchemaSummary) : List String :=
  if d.totalSchemas = 0 then
    [recommendation lang .sdMissing ""]
  else
    whenPositive lang .sdErrors d.totalErrors ++
      if d.richResultEligible = 0 then
        [recommendation lang .sdRich ""]
      else
        []

/- The rules of a tool apply when its status is `ok`. -/
def ToolResult.recs
    {D : Type}
    (rules : D → Except PyError (List String)) :
    ToolResult D → Except PyError (List String)
| .ok data => rules data
| _ => .ok []

/- `build_recommendations` -/
def buildRecommendations
    (repr : Json → String)
    (lang : String)
    (report : Report) : Except PyError (List String) := do
  let pagespeed ←
    report.pagespeed.recs (pagespeedRecs repr lang)
  let wave ←
    report.accessibility.recs
      (fun d => .ok (accessibilityRecs lang d))
  let ssl ← report.ssl.recs (sslRecs lang)
  let links ←
    report.links.recs (fun d => .ok (linksRecs lang d))
  let sd ←
    report.structuredData.recs
      (fun d => .ok (structuredDataRecs lang d))
  let recs := pagespeed ++ wave ++ ssl ++ links ++ sd
  pure
    (if recs.isEmpty then
      [recommendation lang .allGood ""]
    else
      recs)

------------------------------------------------------------
-- The Text of Praise
------------------------------------------------------------

/- What a template puts before its value. -/
def Template.opening : Template → List Char
| .plain text => text.toList.take 3
| .filled before _ => before.toList.take 3

theorem take_of_append
    {n : Nat}
    {xs ys : List Char}
    (hLength : (xs.take n).length = n) :
    (xs ++ ys).take n = xs.take n := by
  apply List.take_append_of_le_length
  rw [List.length_take] at hLength
  omega

/- A formatted text starts as its template does. -/
theorem take_format
    {template : Template}
    (value : String)
    (hLength : template.opening.length = 3) :
    (template.format value).toList.take 3 =
      template.opening := by
  cases template with
  | plain text => exact rfl
  | filled before after =>
      simp only [Template.format, String.toList_append,
        List.append_assoc]
      exact take_of_append hLength

/- The first letters of the texts. -/
def englishOpening : RecKey → List Char
| .perfPoor => ['P', 'e', 'r']
| .perfMid => ['I', 'm', 'p']
| .lcp => ['L', 'a', 'r']
| .tbt => ['R', 'e', 'd']
| .cls => ['R', 'e', 'd']
| .seo => ['I', 'm', 'p']
| .bp => ['F', 'o', 'l']
| .a11yErrors => ['F', 'i', 'x']
| .a11yContrast => ['F', 'i', 'x']
| .sslGrade => ['H', 'a', 'r']
| .sslExpiry => ['R', 'e', 'n']
| .sslVuln => ['A', 'd', 'd']
| .links => ['F', 'i', 'x']
| .sdMissing => ['A', 'd', 'd']
| .sdErrors => ['F', 'i', 'x']
| .sdRich => ['C', 'o', 'm']
| .allGood => ['T', 'h', 'e']

def arabicOpening : RecKey → List Char
| .perfPoor => ['ا', 'ل', 'أ']
| .perfMid => ['ح', 'س', 'ّ']
| .lcp => ['أ', 'ك', 'ب']
| .tbt => ['ق', 'ل', 'ّ']
| .cls => ['ق', 'ل', 'ّ']
| .seo => ['ح', 'س', 'ّ']
| .bp => ['ا', 'ت', 'ب']
| .a11yErrors => ['أ', 'ص', 'ل']
| .a11yContrast => ['أ', 'ص', 'ل']
| .sslGrade => ['ع', 'ز', 'ّ']
| .sslExpiry => ['ج', 'د', 'ّ']
| .sslVuln => ['ع', 'ا', 'ل']
| .links => ['أ', 'ص', 'ل']
| .sdMissing => ['أ', 'ض', 'ف']
| .sdErrors => ['أ', 'ص', 'ل']
| .sdRich => ['أ', 'ك', 'م']
| .allGood => ['ا', 'ل', 'م']

set_option maxRecDepth 4096 in
theorem opening_eq
    (key : RecKey) :
    (english key).opening = englishOpening key ∧
      (arabic key).opening = arabicOpening key := by
  have hTake :
      ∀ (text : List Char),
        (String.ofList text).toList.take 3 = text.take 3 :=
    fun _ => congrArg (List.take 3) String.toList_ofList
  have hAppend :
      ∀ (first : List Char) (rest : String),
        (first.take 3).length = 3 →
          (String.ofList first ++ rest).toList.take 3 =
            first.take 3 := by
    intro first rest hLength
    simp only [String.toList_append, String.toList_ofList]
    exact take_of_append hLength
  have hAppendTwo :
      ∀ (first : List Char) (mid rest : String),
        (first.take 3).length = 3 →
          (String.ofList first ++ mid ++ rest).toList.take 3 =
            first.take 3 := by
    intro first mid rest hLength
    simp only [String.toList_append, List.append_assoc,
      String.toList_ofList]
    exact take_of_append hLength
  cases key with
  | sdMissing =>
      exact ⟨hAppendTwo _ _ _ rfl, hAppendTwo _ _ _ rfl⟩
  | sdRich =>
      exact ⟨hAppendTwo _ _ _ rfl, hAppendTwo _ _ _ rfl⟩
  | allGood =>
      exact ⟨hAppendTwo _ _ _ rfl, hAppendTwo _ _ _ rfl⟩
  | sslGrade =>
      exact ⟨hAppend _ _ rfl, hAppend _ _ rfl⟩
  | sslVuln => exact ⟨hAppend _ _ rfl, hTake _⟩
  | _ => exact ⟨hTake _, hTake _⟩

theorem opening_length
    (key : RecKey) :
    (english key).opening.length = 3 ∧
      (arabic key).opening.length = 3 := by
  rw [(opening_eq key).1, (opening_eq key).2]
  cases key <;> exact ⟨rfl, rfl⟩

theorem opening_ne_allGood
    {key : RecKey}
    (hKey : key ≠ .allGood) :
    (english key).opening ≠ (english .allGood).opening ∧
      (arabic key).opening ≠ (arabic .allGood).opening := by
  rw [(opening_eq key).1, (opening_eq key).2,
    (opening_eq .allGood).1, (opening_eq .allGood).2]
  cases key with
  | allGood => exact absurd rfl hKey
  | _ => decide

/- No other text is the praise. -/
theorem recommendation_ne_allGood
    {key : RecKey}
    (lang value : String)
    (hKey : key ≠ .allGood) :
    recommendation lang key value ≠
      recommendation lang .allGood "" := by
  have hOpenings := opening_ne_allGood hKey
  intro hSame
  have hTake :=
    congrArg (fun text => text.toList.take 3) hSame
  unfold recommendation at hTake
  split at hTake
  · rw [take_format _ (opening_length key).2,
      take_format _ (opening_length .allGood).2] at hTake
    exact hOpenings.2 hTake
  · rw [take_format _ (opening_length key).1,
      take_format _ (opening_length .allGood).1] at hTake
    exact hOpenings.1 hTake

end SiteAnalysis.FullReport
