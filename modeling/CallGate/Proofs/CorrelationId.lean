import CallGate.Proofs.Independence

/-!
# Where a correlation id comes from

A context may be enriched any number of times, with whatever metadata and trace contexts. Main
statements: `ofTrace?_eq_some_iff` says what is left of a trace context, `originates_iff` that the id is
what is left of the latest one that is not blank, `originates_attempt` which id an admitted call gets,
`trace_toCall` which trace context a request brings along, and `correlation_law` all of this together.
-/

namespace CallGate

/-! ## Identifiers -/

theorem Uuid.isBlank_of_mem_chars {id : Uuid} : ∀ c ∈ id.chars, isBlank c = false := by
  have hdigit (n : Nat) : isBlank (hexDigit n) = false := by
    have hsmall : ∀ n < 16, isBlank (hexDigit n) = false := by decide
    have hmod : hexDigit n = hexDigit (n % 16) := by
      rw [hexDigit, hexDigit, Nat.mod_mod]
    rw [hmod]
    exact hsmall _ (Nat.mod_lt _ (by decide))
  have hdigits (width n : Nat) : ∀ c ∈ hexDigits width n, isBlank c = false := by
    induction width generalizing n with
    | zero => exact List.forall_mem_nil _
    | succ width ih =>
      intro c hc
      obtain hc | hc := List.mem_append.mp hc
      · exact ih (n / 16) c hc
      · rw [List.mem_singleton.mp hc]
        exact hdigit n
  have hdash : isBlank '-' = false := by decide
  have hfour : isBlank '4' = false := by decide
  unfold chars
  simp only [List.forall_mem_append, List.forall_mem_cons]
  exact ⟨⟨⟨⟨hdigits _ _, hdash, hdigits _ _⟩, hdash, hfour, hdigits _ _⟩, hdash, hdigit _, hdigits _ _⟩,
    hdash, hdigits _ _⟩

theorem Uuid.trimmed_text (id : Uuid) : Trimmed id.text.toList := by
  rw [text, String.toList_ofList]
  have hne : id.chars ≠ [] := by simp [chars]
  exact trimmed_of_forall hne isBlank_of_mem_chars

/-! ## Trace contexts -/

/-- The text is what is left of the trace context without the blank characters at its ends, of which
something is left. -/
structure IsCore (core trace : String) : Prop where
  trimmed : Trimmed core.toList
  around : ∃ lead trail, Blanks lead ∧ Blanks trail ∧ trace.toList = lead ++ core.toList ++ trail

namespace CorrelationId

theorem ofTrace?_eq_some_iff {trace : String} {id : CorrelationId} :
    ofTrace? trace = some id ↔ ∃ core, IsCore core trace ∧ id = .given core := by
  unfold ofTrace?
  constructor
  · intro h
    dsimp only at h
    split at h
    · cases h
    · next hne =>
      have hleft : trimChars trace.toList ≠ [] := by simpa [trimText] using hne
      obtain ⟨lead, trail, hlead, htrail, htrace⟩ := exists_blanks trace.toList
      rw [← toList_trimText] at hleft htrace
      have htrimmed : Trimmed (trimText trace).toList := by
        rw [toList_trimText] at hleft ⊢
        exact trimmed_trimChars hleft
      exact ⟨_, ⟨htrimmed, lead, trail, hlead, htrail, htrace⟩, (Option.some.inj h).symm⟩
  · rintro ⟨core, ⟨htrimmed, lead, trail, hlead, htrail, htrace⟩, rfl⟩
    have hcore : trimText trace = core := by
      rw [trimText, htrace, htrimmed.trimChars_eq hlead htrail, String.ofList_toList]
    have hne : core.isEmpty = false := by simpa using htrimmed.ne_nil
    simp [hcore, hne]

theorem ofTrace?_eq_none_iff {trace : String} : ofTrace? trace = none ↔ Blanks trace.toList := by
  rw [← trimChars_eq_nil_iff]
  simp [ofTrace?, trimText]

/-- The id has its text from a context with the id `own` into which the traces were read, one after the
other: it is what is left of the latest trace that is not blank, or `own` if there is none. -/
inductive Originates (own : CorrelationId) (traces : List (Option String)) : CorrelationId → Prop where
  | kept (h : ∀ trace, some trace ∈ traces → Blanks trace.toList) : Originates own traces own
  | latest {before after : List (Option String)} {trace core : String}
      (htraces : traces = before ++ some trace :: after) (hcore : IsCore core trace)
      (hafter : ∀ trace, some trace ∈ after → Blanks trace.toList) : Originates own traces (.given core)

/-- The id after one more trace. -/
def replacedBy (id : CorrelationId) (trace : Option String) : CorrelationId :=
  (trace.bind ofTrace?).getD id

theorem replacedBy_blank {id : CorrelationId} {trace : Option String}
    (h : ∀ t, trace = some t → Blanks t.toList) : id.replacedBy trace = id := by
  cases trace with
  | none => rfl
  | some t => simp [replacedBy, ofTrace?_eq_none_iff.mpr (h t rfl)]

theorem foldl_replacedBy_blank {own : CorrelationId} {traces : List (Option String)}
    (h : ∀ trace, some trace ∈ traces → Blanks trace.toList) : traces.foldl replacedBy own = own := by
  induction traces with
  | nil => rfl
  | cons trace traces ih =>
    have hhead : own.replacedBy trace = own := 
      replacedBy_blank fun t ht => h t (ht ▸ List.mem_cons_self)
    rw [List.foldl_cons, hhead]
    exact ih fun t ht => h t (List.mem_cons_of_mem _ ht)

theorem Originates.read {own id : CorrelationId} {traces : List (Option String)}
    (h : Originates own traces id) (trace : Option String) :
    Originates own (traces ++ [trace]) (id.replacedBy trace) := by
  have hmore {traces : List (Option String)} (htraces : ∀ t, some t ∈ traces → Blanks t.toList)
      (hblank : ∀ t, trace = some t → Blanks t.toList) :
      ∀ t, some t ∈ traces ++ [trace] → Blanks t.toList := by
    intro t ht
    obtain ht | ht := List.mem_append.mp ht
    · exact htraces t ht
    · exact hblank t (List.mem_singleton.mp ht).symm
  cases hread : trace.bind ofTrace? with
  | none =>
    -- The trace replaces nothing, so it only makes the blank traces at the end one more.
    have hblank : ∀ t, trace = some t → Blanks t.toList :=
      fun t ht => ofTrace?_eq_none_iff.mp (Option.bind_eq_none_iff.mp hread t ht)
    rw [replacedBy_blank hblank]
    cases h with
    | kept h => exact .kept (hmore h hblank)
    | @latest before after t core htraces hcore hafter =>
      have hsplit : traces ++ [trace] = before ++ some t :: (after ++ [trace]) := by
        rw [htraces, List.append_assoc, List.cons_append]
      exact .latest hsplit hcore (hmore hafter hblank)
  | some id' =>
    obtain ⟨t, rfl, ht⟩ := Option.bind_eq_some_iff.mp hread
    obtain ⟨core, hcore, rfl⟩ := ofTrace?_eq_some_iff.mp ht
    have hgiven : id.replacedBy (some t) = .given core := by simp [replacedBy, ht]
    rw [hgiven]
    exact .latest rfl hcore fun _ h => nomatch h

theorem Originates.readAll {own id : CorrelationId} {before : List (Option String)}
    (h : Originates own before id) (traces : List (Option String)) :
    Originates own (before ++ traces) (traces.foldl replacedBy id) := by
  induction traces generalizing before id with
  | nil => rwa [List.append_nil]
  | cons trace traces ih =>
    have hrest := ih (h.read trace)
    rwa [List.append_assoc, List.singleton_append] at hrest

theorem originates_iff {own id : CorrelationId} {traces : List (Option String)} :
    Originates own traces id ↔ traces.foldl replacedBy own = id := by
  constructor
  · intro h
    cases h with
    | kept h => exact foldl_replacedBy_blank h
    | @latest before after trace core htraces hcore hafter =>
      have hgiven : (before.foldl replacedBy own).replacedBy (some trace) = .given core := by
        simp [replacedBy, ofTrace?_eq_some_iff.mpr ⟨core, hcore, rfl⟩]
      rw [htraces, List.foldl_append, List.foldl_cons, hgiven]
      exact foldl_replacedBy_blank hafter
  · rintro rfl
    have hstart : Originates own [] own := .kept fun _ h => nomatch h
    exact hstart.readAll traces

/-- An id that was drawn, or comes from a trace, is never empty and has no blanks at its ends. -/
theorem Originates.trimmed {own : Uuid} {traces : List (Option String)} {id : CorrelationId}
    (h : Originates (.generated own) traces id) : Trimmed id.text.toList := by
  cases h with
  | kept => exact own.trimmed_text
  | latest _ hcore => exact hcore.trimmed

end CorrelationId

/-! ## Enrichments one after the other -/

/-- What is read into a context at a time. -/
structure Reading where
  settings : Settings
  metadata : Metadata
  trace : Option String

namespace Context

/-- The context after readings, one after the other. -/
def readAll (ctx : Context) (readings : List Reading) : Context :=
  readings.foldl (fun ctx r => (ctx.enrich r.settings r.metadata r.trace).context) ctx

theorem correlation_enrich (ctx : Context) (s : Settings) (m : Metadata) (trace : Option String) :
    (ctx.enrich s m trace).context.correlation = ctx.correlation.replacedBy trace := by
  rw [context_enrich]
  rfl

theorem correlation_readAll (ctx : Context) (readings : List Reading) :
    (ctx.readAll readings).correlation =
      (readings.map (·.trace)).foldl CorrelationId.replacedBy ctx.correlation := by
  induction readings generalizing ctx with
  | nil => rfl
  | cons r readings ih =>
    rw [List.map_cons, List.foldl_cons, ← correlation_enrich ctx r.settings r.metadata r.trace]
    exact ih _

end Context

/-! ## Admitted calls -/

/-- The change, if it is that an identifier was drawn. -/
def Change.draw? : Change → Option Change
  | drawn => some drawn
  | _ => none

theorem World.draws_replay (w : World) (changes : List Change) :
    (w.replay changes).source = w.source ∧
      (w.replay changes).drawn = w.drawn + (changes.filterMap Change.draw?).length := by
  induction changes generalizing w with
  | nil => exact ⟨rfl, rfl⟩
  | cons c changes ih =>
    obtain ⟨hsource, hdrawn⟩ := ih (w.apply c)
    rw [World.replay_cons, hsource, hdrawn]
    cases c with
    | drawn =>
      have hcount : w.drawn + 1 + (changes.filterMap Change.draw?).length =
          w.drawn + ((changes.filterMap Change.draw?).length + 1) := by omega
      exact ⟨rfl, hcount⟩
    | fired t =>
      rw [World.apply, World.fire_eq]
      exact ⟨rfl, rfl⟩
    | noted | asked | profileSet | remembered => exact ⟨rfl, rfl⟩

namespace Gate

variable {g : Gate} {call : Call} {w : World}

/-- The traces that are read into the context of a call: none for an infrastructure call. -/
def traces (g : Gate) (a : Approach) (call : Call) : List (Option String) :=
  if g.bypasses a.shape call then [] else [call.trace]

theorem originates_attempt {a : Approach} {ctx : Context} (h : (a.attempt g call w).1 = .ok ctx) :
    CorrelationId.Originates (.generated w.nextId) (g.traces a call) ctx.correlation := by
  rw [CorrelationId.originates_iff]
  unfold traces
  cases hb : g.bypasses a.shape call with
  | true =>
    rw [Approach.attempt_of_bypasses hb] at h
    cases h
    rfl
  | false =>
    rw [Approach.attempt_of_not_bypasses hb, screen_fst] at h
    split at h
    · cases h
      rw [Context.correlation_enrich]
      rfl
    · cases h

theorem draws_screenChanges (g : Gate) (span : Option Span) (call : Call) (w : World) :
    (g.screenChanges span call w).filterMap Change.draw? = [.drawn] := by
  have hupdates (updates : List (PrincipalId × Locale)) :
      (updates.map fun update => Change.profileSet update.1 update.2).filterMap Change.draw? = [] := by
    rw [List.filterMap_map]
    exact List.filterMap_eq_nil_iff.mpr fun _ _ => rfl
  have hdrawn : Change.draw? .drawn = some .drawn := rfl
  unfold screenChanges recordChanges
  dsimp only
  rw [List.filterMap_append, List.filterMap_append, List.filterMap_cons_some hdrawn,
    List.filterMap_append, filterMap_logChanges fun _ => rfl, hupdates,
    filterMap_consultChanges (fun _ => rfl) fun _ _ => rfl,
    World.filterMap_decisionChanges (fun _ => rfl) fun _ => rfl]
  split <;> rfl

/-- Whether a call is admitted or refused, one identifier is drawn for it. -/
theorem draws_attempt (g : Gate) (a : Approach) (call : Call) (w : World) :
    (a.attempt g call w).2.source = w.source ∧ (a.attempt g call w).2.drawn = w.drawn + 1 := by
  have hscreen (span : Option Span) : (g.screen span call w).2.source = w.source ∧
      (g.screen span call w).2.drawn = w.drawn + 1 := by
    have hdraws := w.draws_replay (g.screenChanges span call w)
    rwa [draws_screenChanges, ← world_screen] at hdraws
  cases hb : g.bypasses a.shape call with
  | true =>
    rw [Approach.attempt_of_bypasses hb]
    exact ⟨rfl, rfl⟩
  | false =>
    rw [Approach.attempt_of_not_bypasses hb]
    exact hscreen _

end Gate

/-! ## Requests -/

/-- The value is the text, which has only visible ASCII characters, spaces and tabs. -/
structure Metadata.Reads (value : Bytes) (text : String) : Prop where
  visible : ∀ b ∈ value, b = 9 ∨ 0x20 ≤ b ∧ b ≤ 0x7E
  codes : text.toList.map Char.toNat = value.map UInt8.toNat

theorem Metadata.textOf?_eq_some_iff {value : Bytes} {text : String} :
    textOf? value = some text ↔ Reads value text := by
  have hvisible : value.all isTextByte = true ↔ ∀ b ∈ value, b = 9 ∨ 0x20 ≤ b ∧ b ≤ 0x7E := by
    simp [isTextByte, or_comm]
  have hcode (b : UInt8) : (Char.ofNat b.toNat).toNat = b.toNat := by
    have hlt : b.toNat < 256 := b.toNat_lt
    exact toNat_ofNat (by omega)
  unfold textOf?
  constructor
  · intro h
    split at h
    · next hall =>
      cases h
      refine ⟨hvisible.mp hall, ?_⟩
      simp [hcode]
    · cases h
  · rintro ⟨hall, hcodes⟩
    have htext : text.toList = value.map fun b => Char.ofNat b.toNat := by
      have hchars := congrArg (List.map Char.ofNat) hcodes
      rw [List.map_map, List.map_map] at hchars
      simpa [Function.comp_def] using hchars
    rw [if_pos (hvisible.mpr hall), ← htext, String.ofList_toList]

theorem Metadata.values_add (m : Metadata) (name stored : String) (value : Bytes) :
    (m.add name value).values stored =
      m.values stored ++ if lowerAscii name = stored then [value] else [] := by
  unfold add values
  rw [List.filter_append, List.map_append]
  by_cases h : lowerAscii name = stored <;> simp [h]

/-- The values under a name are those that were added under it in any case, in the same order. -/
theorem Metadata.values_ofList (added : List (String × Bytes)) (stored : String) :
    (ofList added).values stored =
      (added.filter fun v => lowerAscii v.1 = stored).map Prod.snd := by
  have hfold (m : Metadata) : (added.foldl (fun m v => m.add v.1 v.2) m).values stored =
      m.values stored ++ (added.filter fun v => lowerAscii v.1 = stored).map Prod.snd := by
    induction added generalizing m with
    | nil => exact (List.append_nil _).symm
    | cons v added ih =>
      rw [List.foldl_cons, ih, values_add, List.append_assoc]
      by_cases h : lowerAscii v.1 = stored <;> simp [h]
  exact hfold empty

theorem Request.trace_toCall (r : Request) (method service : String) (token : TokenId) :
    (r.toCall method service token).trace =
      (r.metadata.values traceHeader).head?.bind Metadata.textOf? := by
  have hname : (Metadata.isName traceHeader && !Metadata.isBinaryName traceHeader) = true := by decide
  have hlower : lowerAscii traceHeader = traceHeader := by decide
  unfold toCall Metadata.text?
  rw [Metadata.get?_eq, if_pos hname, hlower]

/-! ## The law -/

/-- However often a context is enriched, and with whatever metadata, its id is what is left of the latest
trace context that is not blank, or the id that was drawn for it if there is none. So the id is never
empty, never begins or ends with a blank, and depends on nothing but the traces. For every call that comes
to a gate one id is drawn, and an admitted call has that id or what is left of its own trace context; the
latter is, for a request, the first value of its header if that is readable, whatever values follow. -/
theorem correlation_law :
    (∀ (call : Call) (own : Uuid) (readings : List Reading),
      let correlation := ((Context.new call own).readAll readings).correlation
      (∀ id, correlation = id ↔ CorrelationId.Originates (.generated own) (readings.map (·.trace)) id) ∧
      Trimmed correlation.text.toList ∧
      ∀ (call' : Call) (readings' : List Reading), readings'.map (·.trace) = readings.map (·.trace) →
        ((Context.new call' own).readAll readings').correlation = correlation) ∧
    (∀ (g : Gate) (a : Approach) (call : Call) (w : World),
      let result := a.attempt g call w
      result.2.source = w.source ∧ result.2.drawn = w.drawn + 1 ∧
      ∀ ctx, result.1 = .ok ctx →
        CorrelationId.Originates (.generated w.nextId) (g.traces a call) ctx.correlation ∧
          Trimmed ctx.correlation.text.toList) ∧
    ∀ (r : Request) (method service : String) (token : TokenId),
      let trace := (r.toCall method service token).trace
      let values := r.metadata.values Request.traceHeader
      (∀ added, r.metadata = .ofList added →
        values = (added.filter fun v => lowerAscii v.1 = "traceparent").map Prod.snd) ∧
      (∀ text, trace = some text ↔
        ∃ value later, values = value :: later ∧ Metadata.Reads value text) ∧
      (values = [] → trace = none) ∧
      ∀ value later, values = value :: later → (∀ text, ¬ Metadata.Reads value text) →
        trace = none := by
  refine ⟨fun call own readings => ?_, fun g a call w => ?_, fun r method service token => ?_⟩
  · intro correlation
    have hread : correlation = (readings.map (·.trace)).foldl CorrelationId.replacedBy (.generated own) :=
      Context.correlation_readAll _ _
    have horiginates : CorrelationId.Originates (.generated own) (readings.map (·.trace)) correlation :=
      CorrelationId.originates_iff.mpr hread.symm
    refine ⟨fun id => ?_, horiginates.trimmed, fun call' readings' htraces => ?_⟩
    · rw [CorrelationId.originates_iff, hread]
    · rw [Context.correlation_readAll, htraces]
      exact hread.symm
  · intro result
    obtain ⟨hsource, hdrawn⟩ := g.draws_attempt a call w
    refine ⟨hsource, hdrawn, fun ctx hctx => ?_⟩
    have horiginates := Gate.originates_attempt hctx
    exact ⟨horiginates, horiginates.trimmed⟩
  · intro trace values
    have htrace : trace = values.head?.bind Metadata.textOf? := r.trace_toCall method service token
    refine ⟨fun added hadded => ?_, fun text => ?_, fun hnil => ?_, fun value later hvalues hunread => ?_⟩
    · simp only [values, hadded]
      exact Metadata.values_ofList added _
    · rw [htrace]
      cases values with
      | nil => simp
      | cons value later => simp [Metadata.textOf?_eq_some_iff]
    · rw [htrace, hnil]
      rfl
    · rw [htrace, hvalues]
      refine Option.eq_none_iff_forall_ne_some.mpr fun text htext => ?_
      exact hunread text (Metadata.textOf?_eq_some_iff.mp htext)

/-- A context that has read two traces and then a blank one, a call with a padded trace, and a request whose
first value cannot be read. -/
theorem correlation_law_padded :
    let call : Call := ⟨"/shop.Orders/Watch", "shop.Orders", .empty, some "ann", some "\u2003b 7\n", .own 0⟩
    let dutch : Metadata := .ofList [("culture", [0x6E, 0x6C])]
    let readings : List Reading := [⟨.standard, .empty, some "a1"⟩, ⟨.standard, dutch, some " c3"⟩,
      ⟨.standard, .empty, some "\u3000"⟩, ⟨.standard, dutch, none⟩]
    let g : Gate := ⟨.standard, fun _ _ => ⟨.free, []⟩, false⟩
    let r : Request := ⟨.ofList [("TraceParent", [0xFF]), ("traceparent", [0x61])], []⟩
    ((Context.new call (.ofNat 7)).readAll readings).correlation = .given "c3" ∧
      (∃ ctx, ((Approach.entering .unary).attempt g call World.blank).1 = .ok ctx ∧
        ctx.correlation = .given "b 7") ∧
      (r.toCall "/shop.Orders/Watch" "shop.Orders" (.own 1)).trace = none := by
  intro call dutch readings g r
  obtain ⟨hread, hattempt, hrequest⟩ := correlation_law
  refine ⟨?_, ?_, ?_⟩
  · refine ((hread call (.ofNat 7) readings).1 _).mpr ?_
    have hcore : IsCore "c3" " c3" := ⟨by decide, [' '], [], by decide, by decide, by decide⟩
    refine @CorrelationId.Originates.latest _ _ [some "a1"] [some "\u3000", none] _ _ rfl hcore ?_
    intro trace htrace
    obtain rfl : trace = "\u3000" := by simpa using htrace
    decide
  · obtain ⟨ctx, hctx⟩ : ∃ ctx, ((Approach.entering .unary).attempt g call World.blank).1 = .ok ctx :=
      (Gate.admitted_iff _).mpr (by decide)
    obtain ⟨-, -, hadmitted⟩ := hattempt g (.entering .unary) call World.blank
    refine ⟨ctx, hctx, ?_⟩
    have hreplaced := CorrelationId.originates_iff.mp (hadmitted ctx hctx).1
    rw [← hreplaced]
    decide
  · obtain ⟨-, -, -, hunread⟩ := hrequest r "/shop.Orders/Watch" "shop.Orders" (.own 1)
    refine hunread [0xFF] [[0x61]] (by decide) fun text htext => ?_
    exact absurd (htext.visible 0xFF (by decide)) (by decide)

end CallGate
