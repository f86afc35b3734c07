import SiteAnalysis.FullReport.Tables
import SiteAnalysis.Markup.Inline

/-
  This file defines the texts of the PDF of a report, in both
  languages, and proves that the English ones hold no markup.

  Key definitions include:
    * `label`
    * `explanation`

  Key theorems include:
    * `inline_label`
    * `inline_explanation`
-/

------------------------------------------------------------
-- Labels
------------------------------------------------------------

namespace SiteAnalysis.FullReport

open Markup

/- The keys of `LABELS`. -/
inductive LabelKey
  | title
  | subtitle
  | url
  | strategy
  | generated
  | psTitle
  | gtmTitle
  | waveTitle
  | performance
  | accessibility
  | bestPractices
  | seo
  | fcp
  | lcp
  | tbt
  | cls
  | si
  | grade
  | structureScore
  | fullyLoaded
  | pageSize
  | requests
  | wcag
  | errors
  | contrast
  | alerts
  | features
  | structural
  | metric
  | result
  | type
  | issue
  | count
  | topIssues
  | couldNotRun
  | notIncluded
  | good
  | warn
  | poor
  | na
  | fails
  | ratingsNote
  | overall
  | overallNa
  | footer
  | sslTitle
  | sslGrade
  | sslProtocols
  | sslCertExpiry
  | sslTrusted
  | sslVulns
  | days
  | yes
  | no
  | noneFound
  | linksTitle
  | linksTotal
  | linksHealthy
  | linksBroken
  | linksRedirects
  | linksTimeouts
  | linksBrokenList
  | linkCol
  | statusCol
  | sdTitle
  | sdTotal
  | sdValid
  | sdRich
  | sdErrors
  | sdWarnings
  | sdJsonLd
  | sdMicrodata
  | sdRdfa
  | sdFormats
  | sdTypesFound
  | sdTypeCol
  | sdFormatCol
  | sdValidCol
  | sdIssuesList
  | sdFieldCol
  | sdNone
  | recTitle

/- `LABELS["en"]` -/
def englishLabel : LabelKey → String
| .title => "Website Analysis Report"
| .subtitle => "Performance  ·  Accessibility  ·  SEO"
| .url => "URL"
| .strategy => "Strategy"
| .generated => "Generated"
| .psTitle => "Google PageSpeed"
| .gtmTitle => "GTmetrix"
| .waveTitle => "Accessibility (WAVE)"
| .performance => "Performance"
| .accessibility => "Accessibility"
| .bestPractices => "Best Practices"
| .seo => "SEO"
| .fcp => "First Contentful Paint"
| .lcp => "Largest Contentful Paint"
| .tbt => "Total Blocking Time"
| .cls => "Cumulative Layout Shift"
| .si => "Speed Index"
| .grade => "GTmetrix Grade"
| .structureScore => "Structure"
| .fullyLoaded => "Fully Loaded Time"
| .pageSize => "Page Size"
| .requests => "Page Requests"
| .wcag => "Estimated WCAG level"
| .errors => "Errors"
| .contrast => "Contrast errors"
| .alerts => "Alerts"
| .features => "Features"
| .structural => "Structural elements"
| .metric => "Metric"
| .result => "Result"
| .type => "Type"
| .issue => "Issue"
| .count => "Count"
| .topIssues => "Top issues found"
| .couldNotRun => "Could not run"
| .notIncluded => "This tool was not included in this report."
| .good => "Good"
| .warn => "Needs improvement"
| .poor => "Poor"
| .na => "N/A"
| .fails => "Fails (has errors)"
| .ratingsNote =>
    "Ratings:  Good 90-100  ·  Needs improvement " ++
      "50-89  ·  Poor 0-49"
| .overall => "Overall rating"
| .overallNa => "Overall rating unavailable"
| .footer => "Generated by the Site Analysis API"
| .sslTitle => "SSL / TLS Security"
| .sslGrade => "Security Grade"
| .sslProtocols => "Protocols"
| .sslCertExpiry => "Certificate expires in"
| .sslTrusted => "Certificate trusted"
| .sslVulns => "Vulnerabilities"
| .days => "days"
| .yes => "Yes"
| .no => "No"
| .noneFound => "None found"
| .linksTitle => "Broken Link Check"
| .linksTotal => "Links checked"
| .linksHealthy => "Healthy"
| .linksBroken => "Broken"
| .linksRedirects => "Redirects"
| .linksTimeouts => "Timeouts"
| .linksBrokenList => "Broken links"
| .linkCol => "Link"
| .statusCol => "Status"
| .sdTitle => "Structured Data (Schema.org)"
| .sdTotal => "Schemas found"
| .sdValid => "Valid schemas"
| .sdRich => "Rich-result eligible"
| .sdErrors => "Errors"
| .sdWarnings => "Warnings"
| .sdJsonLd => "JSON-LD"
| .sdMicrodata => "Microdata"
| .sdRdfa => "RDFa"
| .sdFormats => "Formats detected"
| .sdTypesFound => "Schema types found"
| .sdTypeCol => "Type"
| .sdFormatCol => "Format"
| .sdValidCol => "Valid"
| .sdIssuesList => "Top issues"
| .sdFieldCol => "Field"
| .sdNone => "No structured data found on the page."
| .recTitle =>
    "Recommendations (how we improve the experience)"

/- `LABELS["ar"]` -/
def arabicLabel : LabelKey → String
| .title => "تقرير تحليل الموقع"
| .subtitle =>
    "الأداء  ·  إمكانية الوصول  ·  تحسين محركات البحث"
| .url => "الرابط"
| .strategy => "النوع"
| .generated => "تاريخ الإنشاء"
| .psTitle => "جوجل بيدج سبيد"
| .gtmTitle => "جي تي متركس"
| .waveTitle => "إمكانية الوصول (WAVE)"
| .performance => "الأداء"
| .accessibility => "إمكانية الوصول"
| .bestPractices => "أفضل الممارسات"
| .seo => "تحسين محركات البحث"
| .fcp => "أول رسم للمحتوى"
| .lcp => "أكبر رسم للمحتوى"
| .tbt => "إجمالي وقت الحجب"
| .cls => "إزاحة التخطيط التراكمية"
| .si => "مؤشر السرعة"
| .grade => "تقييم GTmetrix"
| .structureScore => "البنية"
| .fullyLoaded => "زمن التحميل الكامل"
| .pageSize => "حجم الصفحة"
| .requests => "عدد الطلبات"
| .wcag => "مستوى WCAG التقديري"
| .errors => "الأخطاء"
| .contrast => "أخطاء التباين"
| .alerts => "التنبيهات"
| .features => "الميزات"
| .structural => "العناصر الهيكلية"
| .metric => "المقياس"
| .result => "النتيجة"
| .type => "النوع"
| .issue => "المشكلة"
| .count => "العدد"
| .topIssues => "أبرز المشاكل"
| .couldNotRun => "تعذّر التشغيل"
| .notIncluded => "لم يتم تضمين هذه الأداة في هذا التقرير."
| .good => "ممتاز"
| .warn => "يحتاج تحسين"
| .poor => "ضعيف"
| .na => "غير متاح"
| .fails => "غير مطابق (يوجد أخطاء)"
| .ratingsNote =>
    "التقييم:  ممتاز 90-100  ·  يحتاج تحسين 50-89  ·  " ++
      "ضعيف 0-49"
| .overall => "التقييم العام"
| .overallNa => "التقييم العام غير متاح"
| .footer => "تم إنشاء التقرير بواسطة Site Analysis API"
| .sslTitle => "أمان SSL / TLS"
| .sslGrade => "تقييم الأمان"
| .sslProtocols => "البروتوكولات"
| .sslCertExpiry => "تنتهي الشهادة خلال"
| .sslTrusted => "الشهادة موثوقة"
| .sslVulns => "الثغرات"
| .days => "يوم"
| .yes => "نعم"
| .no => "لا"
| .noneFound => "لا يوجد"
| .linksTitle => "فحص الروابط المكسورة"
| .linksTotal => "الروابط المفحوصة"
| .linksHealthy => "سليمة"
| .linksBroken => "مكسورة"
| .linksRedirects => "إعادة توجيه"
| .linksTimeouts => "انتهت المهلة"
| .linksBrokenList => "الروابط المكسورة"
| .linkCol => "الرابط"
| .statusCol => "الحالة"
| .sdTitle => "البيانات المنظمة (Schema.org)"
| .sdTotal => "عدد المخططات"
| .sdValid => "المخططات الصحيحة"
| .sdRich => "مؤهلة للنتائج الغنية"
| .sdErrors => "الأخطاء"
| .sdWarnings => "التحذيرات"
| .sdJsonLd => "JSON-LD"
| .sdMicrodata => "Microdata"
| .sdRdfa => "RDFa"
| .sdFormats => "الصيغ المكتشفة"
| .sdTypesFound => "أنواع المخططات المكتشفة"
| .sdTypeCol => "النوع"
| .sdFormatCol => "الصيغة"
| .sdValidCol => "صحيح"
| .sdIssuesList => "أبرز المشاكل"
| .sdFieldCol => "الحقل"
| .sdNone => "لا توجد بيانات منظمة في الصفحة."
| .recTitle => "التوصيات (كيف نحسّن التجربة)"

/- `tr[key]` -/
def label
    (lang : Lang)
    (key : LabelKey) : String :=
  match lang with
  | .en => englishLabel key
  | .ar => arabicLabel key

/- The header of a table of metrics uses two of them. -/
theorem labels_eq
    (lang : Lang) :
    labels lang = ⟨label lang .metric, label lang .result⟩ := by
  cases lang <;> rfl

/- A literal is the list of its characters. -/
theorem inline_literal
    {known : List Char → List Char → Prop}
    (cs : List Char)
    (hText : isText cs = true) :
    Inline known (String.ofList cs).toList := by
  rw [String.toList_ofList]
  exact inline_of_isText hText

theorem inline_append
    {known : List Char → List Char → Prop}
    {text text' : String}
    (hText : Inline known text.toList)
    (hText' : Inline known text'.toList) :
    Inline known (text ++ text').toList := by
  rw [String.toList_append]
  exact hText.append hText'

theorem inline_label
    (known : List Char → List Char → Prop)
    (key : LabelKey) :
    Inline known (label .en key).toList := by
  cases key with
  | ratingsNote =>
      exact
        inline_append (inline_literal _ (by decide +kernel))
          (inline_literal _ (by decide +kernel))
  | _ => exact inline_literal _ (by decide +kernel)

------------------------------------------------------------
-- Explanations
------------------------------------------------------------

/- The keys of `EXPLANATIONS`. -/
inductive ExplanationKey
  | performance
  | accessibility
  | bestPractices
  | seo
  | fcp
  | lcp
  | tbt
  | cls
  | si
  | grade
  | structureScore
  | fullyLoaded
  | pageSize
  | requests
  | wcag
  | errors
  | contrast
  | alerts
  | features
  | structural
  | sslProtocols
  | sslCertExpiry
  | sslTrusted
  | sslVulns
  | linksTotal
  | linksHealthy
  | linksBroken
  | linksRedirects
  | linksTimeouts
  | sdTotal
  | sdValid
  | sdRich
  | sdErrors
  | sdWarnings
  | sdFormats

/- `EXPLANATIONS["en"]` -/
def englishExplanation : ExplanationKey → String
| .performance =>
    "Overall page-speed score (0–100). Higher is better."
| .accessibility =>
    "How usable the site is for people with " ++
      "disabilities (0–100). Higher is better."
| .bestPractices =>
    "How well the site follows modern web & security " ++
      "best practices (0–100). Higher is better."
| .seo =>
    "How well the page is set up for search engines " ++
      "(0–100). Higher is better."
| .fcp =>
    "Time until the first text or image appears on " ++
      "screen. Lower is better."
| .lcp =>
    "Time until the largest element (usually the hero " ++
      "image) is shown. Lower is better — aim for under " ++
      "2.5s."
| .tbt =>
    "Total time the page can't respond to taps/clicks " ++
      "while loading. Lower is better."
| .cls =>
    "How much the layout unexpectedly shifts while " ++
      "loading. Lower is better — aim for under 0.1."
| .si =>
    "How quickly the page's content visually fills in. " ++
      "Lower is better."
| .grade =>
    "GTmetrix's overall performance grade (A is best, " ++
      "F is worst)."
| .structureScore =>
    "How well the page is built for performance " ++
      "(0–100). Higher is better."
| .fullyLoaded =>
    "Time until the page finishes loading completely. " ++
      "Lower is better."
| .pageSize =>
    "Total size of everything the page downloads. " ++
      "Smaller is faster."
| .requests =>
    "Number of files the page loads. Fewer is usually faster."
| .wcag =>
    "The site's estimated WCAG accessibility " ++
      "conformance level."
| .errors =>
    "Accessibility errors that block some users. Lower " ++
      "is better — aim for 0."
| .contrast =>
    "Text with too little colour contrast against its " ++
      "background. Lower is better."
| .alerts =>
    "Possible accessibility problems worth reviewing."
| .features =>
    "Accessibility-friendly elements found on the page " ++
      "(positive)."
| .structural =>
    "Structural elements (headings, lists) that " ++
      "organise the content."
| .sslProtocols =>
    "Encryption protocols the server supports. TLS 1.2 " ++
      "and 1.3 are the safe ones."
| .sslCertExpiry =>
    "Days left before the security certificate " ++
      "expires. Renew before it does."
| .sslTrusted =>
    "Whether browsers trust the site's certificate."
| .sslVulns =>
    "Known weaknesses in the encryption setup. There " ++
      "should be none."
| .linksTotal => "Number of links checked on the page."
| .linksHealthy => "Links that work correctly."
| .linksBroken =>
    "Links that return an error. These should be fixed."
| .linksRedirects => "Links that forward to another address."
| .linksTimeouts => "Links that didn't respond in time."
| .sdTotal =>
    "Number of structured-data (Schema.org) objects " ++
      "found on the page."
| .sdValid =>
    "Objects that are valid and match Schema.org rules."
| .sdRich =>
    "Objects eligible to appear as rich results in Google."
| .sdErrors =>
    "Structured-data errors that block rich results. " ++
      "Fix these."
| .sdWarnings => "Structured-data warnings worth addressing."
| .sdFormats =>
    "Which structured-data formats were detected on the page."

/- `EXPLANATIONS["ar"]` -/
def arabicExplanation : ExplanationKey → String
| .performance =>
    "التقييم الإجمالي لسرعة أداء الصفحة (0–100). كلما " ++
      "زاد كان أفضل."
| .accessibility =>
    "مدى سهولة استخدام الموقع لذوي الاحتياجات الخاصة " ++
      "(0–100). كلما زاد كان أفضل."
| .bestPractices =>
    "مدى اتباع الموقع لأفضل ممارسات الويب والأمان " ++
      "(0–100). كلما زاد كان أفضل."
| .seo =>
    "مدى تهيئة الصفحة لمحركات البحث (0–100). كلما زاد " ++
      "كان أفضل."
| .fcp =>
    "الوقت حتى ظهور أول عنصر مرئي (نص أو صورة) على " ++
      "الشاشة. كلما قل كان أفضل."
| .lcp =>
    "الوقت حتى ظهور أكبر عنصر مرئي (غالباً صورة " ++
      "الواجهة). كلما قل كان أفضل — يُفضّل أقل من 2.5 " ++
      "ثانية."
| .tbt =>
    "إجمالي الوقت الذي لا تستطيع فيه الصفحة الاستجابة " ++
      "للنقر أثناء التحميل. كلما قل كان أفضل."
| .cls =>
    "مقدار تحرّك عناصر الصفحة بشكل مفاجئ أثناء " ++
      "التحميل. كلما قل كان أفضل، والأفضل أن يكون أقل من " ++
      "0.1 نقطة."
| .si =>
    "مدى سرعة ظهور محتوى الصفحة بصرياً أثناء التحميل. " ++
      "كلما قل كان أفضل."
| .grade =>
    "التقييم الإجمالي لأداء الصفحة من GTmetrix (A " ++
      "الأفضل و F الأسوأ)."
| .structureScore =>
    "مدى جودة بناء الصفحة من ناحية الأداء (0–100). " ++
      "كلما زاد كان أفضل."
| .fullyLoaded =>
    "الوقت حتى اكتمال تحميل الصفحة بالكامل. كلما قل كان أفضل."
| .pageSize =>
    "الحجم الكلي لكل ما تحمّله الصفحة. كلما قل كان أسرع."
| .requests =>
    "عدد الملفات التي تحمّلها الصفحة. كلما قل كان أسرع " ++
      "غالباً."
| .wcag =>
    "المستوى التقديري لمطابقة الموقع لمعايير الوصول WCAG."
| .errors =>
    "أخطاء الوصول التي تعيق بعض المستخدمين. كلما قل " ++
      "كان أفضل — يُفضّل صفر."
| .contrast =>
    "نصوص تباينها اللوني مع الخلفية ضعيف. كلما قل كان أفضل."
| .alerts => "مشاكل وصول محتملة تستحق المراجعة."
| .features => "عناصر تدعم الوصول موجودة في الصفحة (إيجابية)."
| .structural =>
    "عناصر البنية (عناوين، قوائم) التي تنظّم المحتوى."
| .sslProtocols =>
    "بروتوكولات التشفير التي يدعمها الخادم. والآمن " ++
      "منها إصدارا TLS 1.2 و1.3 فقط."
| .sslCertExpiry =>
    "الأيام المتبقية قبل انتهاء شهادة الأمان. جدّدها " ++
      "قبل انتهائها."
| .sslTrusted => "هل تثق المتصفحات بشهادة الموقع."
| .sslVulns =>
    "ثغرات معروفة في إعداد التشفير. يجب ألا توجد أي ثغرة."
| .linksTotal => "عدد الروابط التي تم فحصها في الصفحة."
| .linksHealthy => "الروابط التي تعمل بشكل سليم."
| .linksBroken => "الروابط التي تُرجع خطأ. يجب إصلاحها."
| .linksRedirects => "الروابط التي تحوّل إلى عنوان آخر."
| .linksTimeouts => "الروابط التي لم تستجب في الوقت المحدد."
| .sdTotal =>
    "عدد مخططات البيانات المنظمة (Schema.org) الموجودة " ++
      "في الصفحة."
| .sdValid => "المخططات الصحيحة والمطابقة لمعايير Schema.org."
| .sdRich => "المخططات المؤهلة للظهور كنتائج غنية في جوجل."
| .sdErrors =>
    "أخطاء في البيانات المنظمة تمنع النتائج الغنية. " ++
      "يجب إصلاحها."
| .sdWarnings =>
    "تحذيرات في البيانات المنظمة يُفضّل معالجتها."
| .sdFormats =>
    "صيغ البيانات المنظمة التي تم اكتشافها في الصفحة."

/- `get_explanations(lang)[key]` -/
def explanation
    (lang : Lang)
    (key : ExplanationKey) : String :=
  match lang with
  | .en => englishExplanation key
  | .ar => arabicExplanation key

/- No metric is left without a note. -/
theorem explanation_ne_empty
    (lang : Lang)
    (key : ExplanationKey) : explanation lang key ≠ "" := by
  cases lang <;> cases key <;> decide +kernel

theorem inline_explanation
    (known : List Char → List Char → Prop)
    (key : ExplanationKey) :
    Inline known (explanation .en key).toList := by
  cases key with
  | accessibility | bestPractices | seo | fcp
  | tbt | cls | si | grade
  | structureScore | fullyLoaded | pageSize | wcag
  | errors | contrast | features | structural
  | sslProtocols | sslCertExpiry | sslVulns | sdTotal
  | sdErrors =>
      exact
        inline_append (inline_literal _ (by decide +kernel))
          (inline_literal _ (by decide +kernel))
  | lcp =>
      exact
        inline_append
          (inline_append (inline_literal _ (by decide +kernel))
            (inline_literal _ (by decide +kernel)))
          (inline_literal _ (by decide +kernel))
  | _ => exact inline_literal _ (by decide +kernel)

end SiteAnalysis.FullReport
