import CallGate.Proofs.Admission

/-!
# Where the culture of a call is read

A culture is read from the first value under the culture header, and from nothing else. Main
statements: `culture_eq_accepted_iff` says which locale the metadata of a call ask for, `locale_enrich`
and `profile_record` what becomes of it, and `binary_unread_iff` for which settings the values of
binary headers have no say in it: settings are refused if their culture header ends in `-bin`, but not
if it ends in `-BIN`, and names are looked up without regard to case.
-/

namespace CallGate

namespace Metadata

/-- The values under a stored name, the first one first. -/
def values (m : Metadata) (name : String) : List Bytes :=
  (m.entries.filter fun entry => entry.1 == name).map Prod.snd

theorem get?_eq (m : Metadata) (name : String) :
    m.get? name =
      if isName name && !isBinaryName name then (m.values (lowerAscii name)).head? else none := by
  unfold get? values
  rw [List.head?_map, List.head?_filter]

/-- The two hold the same values under all stored names that are not those of binary headers. -/
def AgreesOnText (m m' : Metadata) : Prop :=
  ∀ name, isBinaryName name = false → m.values name = m'.values name

end Metadata

/-- The locale that a culture names, if it is available. -/
def Culture.accepted? : Culture → Option Locale
  | accepted locale => some locale
  | absent | rejected .. => none

theorem Culture.accepted?_eq_some_iff {c : Culture} {locale : Locale} :
    c.accepted? = some locale ↔ c = accepted locale := by
  cases c <;> simp [accepted?]

namespace Settings

variable {s : Settings} {m m' : Metadata} {locale : Locale}

/-- The metadata ask for the locale: the first value under the culture header is a text that names
it, and its language is one that a culture may ask for. -/
def AsksFor (s : Settings) (m : Metadata) (locale : Locale) : Prop :=
  Metadata.isName s.cultureHeader = true ∧ Metadata.isBinaryName s.cultureHeader = false ∧
    ∃ value later tag, m.values (lowerAscii s.cultureHeader) = value :: later ∧
      Metadata.textOf? value = some tag ∧ Locale.parseAmong tag s.supportedLanguages = .ok locale

theorem text?_eq_some_iff {tag : String} :
    m.text? s.cultureHeader = some tag ↔
      Metadata.isName s.cultureHeader = true ∧ Metadata.isBinaryName s.cultureHeader = false ∧
        ∃ value later, m.values (lowerAscii s.cultureHeader) = value :: later ∧
          Metadata.textOf? value = some tag := by
  unfold Metadata.text?
  rw [Metadata.get?_eq]
  cases Metadata.isName s.cultureHeader with
  | false => simp
  | true =>
    cases Metadata.isBinaryName s.cultureHeader with
    | true => simp
    | false => cases m.values (lowerAscii s.cultureHeader) <;> simp

theorem culture_eq_accepted_iff : s.culture m = .accepted locale ↔ s.AsksFor m locale := by
  have hculture : s.culture m = .accepted locale ↔ ∃ tag, m.text? s.cultureHeader = some tag ∧
      Locale.parseAmong tag s.supportedLanguages = .ok locale := by
    unfold culture
    cases m.text? s.cultureHeader with
    | none => simp
    | some tag => cases hp : Locale.parseAmong tag s.supportedLanguages <;> simp [hp]
  rw [hculture]
  constructor
  · rintro ⟨tag, htext, hparse⟩
    obtain ⟨hname, hbinary, value, later, hvalues, hvalue⟩ := text?_eq_some_iff.mp htext
    exact ⟨hname, hbinary, value, later, tag, hvalues, hvalue, hparse⟩
  · rintro ⟨hname, hbinary, value, later, tag, hvalues, hvalue, hparse⟩
    exact ⟨tag, text?_eq_some_iff.mpr ⟨hname, hbinary, value, later, hvalues, hvalue⟩, hparse⟩

end Settings

/-! ## What becomes of a culture -/

section Enrich

variable (ctx : Context) (s : Settings) (m : Metadata) (trace : Option String)

/-- An enrichment sets the locale that the metadata ask for, if the call has a principal, and leaves
the one that there is otherwise. -/
theorem Context.context_enrich : (ctx.enrich s m trace).context =
    { ctx.withTrace trace with
      locale := (ctx.principal.bind fun _ => (s.culture m).accepted?).or ctx.locale } := by
  obtain ⟨locale, correlation, principal, token⟩ := ctx
  unfold enrich
  cases principal with
  | none => rfl
  | some p => cases s.culture m <;> rfl

theorem Context.locale_enrich : (ctx.enrich s m trace).context.locale =
    (ctx.principal.bind fun _ => (s.culture m).accepted?).or ctx.locale := by
  rw [context_enrich]

theorem Context.profile_enrich : (ctx.enrich s m trace).profile =
    ctx.principal.bind fun _ => (s.culture m).accepted? := by
  unfold enrich
  dsimp only
  rw [Gate.withTrace_principal]
  cases ctx.principal with
  | none => rfl
  | some p => cases s.culture m <;> rfl

end Enrich

namespace World

variable (w : World) (p q : PrincipalId)

theorem profile_setProfile (locale : Locale) :
    (w.setProfile q locale).profile p = if q = p then some locale else w.profile p := by
  by_cases h : q = p
  · simp [profile, setProfile, setPrincipal, h]
  · have h' : ¬ p = q := fun e => h e.symm
    simp [profile, setProfile, setPrincipal, h, h']

theorem principals_logAll (span : Option Span) (events : List Event) :
    (w.logAll span events).principals = w.principals := by
  induction events generalizing w with
  | nil => rfl
  | cons e events ih => exact ih (w.log span e)

/-- Only the profile of the context's own principal is set. -/
theorem profile_record (span : Option Span) (e : Enrichment) :
    (Gate.record span e w).profile p =
      if e.context.principal = some p then e.profile.or (w.profile p) else w.profile p := by
  have hlog : (w.logAll span e.events).profile p = w.profile p := by
    unfold profile
    rw [principals_logAll]
  unfold Gate.record
  cases e.context.principal with
  | none => exact hlog
  | some q =>
    cases e.profile with
    | none =>
      rw [Option.none_or, ite_self]
      exact hlog
    | some locale =>
      simp only [profile_setProfile, hlog, Option.some_or, Option.some_inj]

end World

namespace Settings

variable {s : Settings} {m m' : Metadata}

/-- Whichever of the two metadata is read into a context, the locale of the context and the profiles
are the same afterwards. -/
def ReadsAlike (s : Settings) (m m' : Metadata) : Prop :=
  ∀ (ctx : Context) (trace : Option String),
    let now := ctx.enrich s m trace
    let other := ctx.enrich s m' trace
    now.context.locale = other.context.locale ∧
      ∀ (span : Option Span) (w : World) (p : PrincipalId),
        (Gate.record span now w).profile p = (Gate.record span other w).profile p

theorem readsAlike_iff : s.ReadsAlike m m' ↔
    (s.culture m).accepted? = (s.culture m').accepted? := by
  constructor
  · intro h
    have hlocale := (h ⟨none, .given "", some "", .own 0⟩ none).1
    simpa [Context.locale_enrich] using hlocale
  · intro h ctx trace
    dsimp only
    constructor
    · rw [Context.locale_enrich, Context.locale_enrich, h]
    · intro span w p
      rw [World.profile_record, World.profile_record, Gate.enrich_principal, Gate.enrich_principal,
        Context.profile_enrich, Context.profile_enrich, h]

/-- The culture header is, but for the case of its letters, the name of a binary header, and there is
a text that names an available locale. -/
def ReadsBinary (s : Settings) : Prop :=
  Metadata.isName s.cultureHeader = true ∧
    Metadata.isBinaryName (lowerAscii s.cultureHeader) = true ∧
    ∃ value tag locale, Metadata.textOf? value = some tag ∧
      Locale.parseAmong tag s.supportedLanguages = .ok locale

theorem not_isBinaryName_of_fault? (hs : s.fault? = none) :
    Metadata.isBinaryName s.cultureHeader = false := by
  cases hb : Metadata.isBinaryName s.cultureHeader with
  | false => rfl
  | true =>
    unfold fault? at hs
    rw [Metadata.isBinaryName] at hb
    rw [if_pos hb] at hs
    split at hs <;> cases hs

/-- What is read as a culture is read alike, unless the header is one of binary values. -/
theorem readsAlike_of_not_readsBinary (h : ¬ s.ReadsBinary) (hm : m.AgreesOnText m') :
    s.ReadsAlike m m' := by
  rw [readsAlike_iff]
  have hasks (locale : Locale) : s.AsksFor m locale ↔ s.AsksFor m' locale := by
    cases hb : Metadata.isBinaryName (lowerAscii s.cultureHeader) with
    | false =>
      unfold AsksFor
      rw [hm _ hb]
    | true =>
      -- No text names an available locale then, whatever the values are.
      have hnone (n : Metadata) : ¬ s.AsksFor n locale := by
        rintro ⟨hname, -, value, later, tag, -, hvalue, hparse⟩
        exact h ⟨hname, hb, value, tag, locale, hvalue, hparse⟩
      exact ⟨fun hl => absurd hl (hnone m), fun hl => absurd hl (hnone m')⟩
  refine Option.ext fun locale => ?_
  rw [Culture.accepted?_eq_some_iff, Culture.accepted?_eq_some_iff, culture_eq_accepted_iff,
    culture_eq_accepted_iff]
  exact hasks locale

/-- A single value under the culture header is enough to be read. -/
theorem exists_binary_read (hs : Metadata.isBinaryName s.cultureHeader = false)
    (h : s.ReadsBinary) :
    ∃ value, (Metadata.ofList [(s.cultureHeader, value)]).AgreesOnText .empty ∧
      ¬ s.ReadsAlike (.ofList [(s.cultureHeader, value)]) .empty := by
  obtain ⟨hname, hb, value, tag, locale, hvalue, hparse⟩ := h
  have hvalues (name : String) : (Metadata.ofList [(s.cultureHeader, value)]).values name =
      if lowerAscii s.cultureHeader = name then [value] else [] := by
    by_cases hn : lowerAscii s.cultureHeader = name <;>
      simp [Metadata.ofList, Metadata.add, Metadata.empty, Metadata.values, hn]
  refine ⟨value, fun name hn => ?_, fun hread => ?_⟩
  · rw [hvalues, if_neg]
    · rfl
    · rintro rfl
      rw [hb] at hn
      cases hn
  · have hasks : s.AsksFor (.ofList [(s.cultureHeader, value)]) locale := by
      refine ⟨hname, hs, value, [], tag, ?_, hvalue, hparse⟩
      rw [hvalues, if_pos rfl]
    have hread' := readsAlike_iff.mp hread
    rw [culture_eq_accepted_iff.mpr hasks] at hread'
    obtain ⟨-, -, _, _, _, hnil, -⟩ :=
      culture_eq_accepted_iff.mp (Culture.accepted?_eq_some_iff.mp hread'.symm)
    cases hnil

/-- With settings that can be used, the values of binary headers have no say in the locale of a
context and in profiles, just if the culture header is not the name of a binary header in another
case. -/
theorem binary_unread_iff (s : Settings) (hs : s.fault? = none) :
    (∀ m m' : Metadata, m.AgreesOnText m' → s.ReadsAlike m m') ↔ ¬ s.ReadsBinary := by
  constructor
  · intro hall hbinary
    obtain ⟨value, hagrees, hread⟩ :=
      exists_binary_read (not_isBinaryName_of_fault? hs) hbinary
    exact hread (hall _ _ hagrees)
  · intro h m m' hm
    exact readsAlike_of_not_readsBinary h hm

/-- The standard header is in lower case. -/
theorem binary_unread_standard :
    standard.fault? = none ∧ ∀ m m' : Metadata, m.AgreesOnText m' → standard.ReadsAlike m m' := by
  have hs : standard.fault? = none := by decide +kernel
  have hb : ¬ standard.ReadsBinary := by
    rintro ⟨-, hb, -⟩
    revert hb
    decide +kernel
  exact ⟨hs, (binary_unread_iff standard hs).mpr hb⟩

/-- A header in capitals is not taken for a binary one, and is found in lower case. -/
theorem binary_read_as_culture :
    let s : Settings := { standard with cultureHeader := "culture-BIN" }
    let m := Metadata.ofList [("culture-bin", [0x6E, 0x6C])]
    s.fault? = none ∧ m.AgreesOnText .empty ∧ ¬ s.ReadsAlike m .empty := by
  intro s m
  refine ⟨by decide +kernel, fun name hn => ?_, fun hread => ?_⟩
  · have hne : ("culture-bin" == name) = false := by
      rw [beq_eq_false_iff_ne]
      rintro rfl
      revert hn
      decide +kernel
    have hentries : m.entries = [("culture-bin", [0x6E, 0x6C])] := by decide +kernel
    simp [Metadata.values, Metadata.empty, hentries, hne]
  · have hdutch : (s.culture m).accepted? ≠ (s.culture .empty).accepted? := by decide +kernel
    exact hdutch (readsAlike_iff.mp hread)

end Settings

end CallGate
