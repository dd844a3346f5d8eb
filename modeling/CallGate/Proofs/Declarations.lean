import CallGate.Requirement.Resolver

/-!
# Which declaration counts

Declarations are made one after the other, in any order and with repetitions. A registry keeps of each
subject, which is one method of a service or a service as a whole, what was declared last. Main
statements: `declared_ofDeclarations` says that a registry holds the last declaration about each
subject, `endsIn_iff` what the last part of a path is, and `last_declaration_counts` what a method
resolves to, and which changes of a list of declarations make no difference to it.
-/

namespace CallGate

/-- What a declaration is about: a service and a key of one of its methods, or the service as a whole. -/
abbrev Subject := String × Option String

namespace Declaration

/-- What the declaration is about. -/
def subject : Declaration → Subject
  | .method owner key _ => (owner, some key)
  | .service owner _ => (owner, none)

/-- What the declaration requires. -/
def requirement : Declaration → Requirement
  | .method _ _ requirement | .service _ requirement => requirement

/-- What the last declaration about a subject requires. -/
def lastAbout (subject : Subject) (declarations : List Declaration) : Option Requirement :=
  (declarations.filter fun d => d.subject = subject).getLast?.map requirement

section

variable {subject : Subject}

theorem lastAbout_append (declarations more : List Declaration) :
    lastAbout subject (declarations ++ more) =
      (lastAbout subject more).or (lastAbout subject declarations) := by
  unfold lastAbout
  rw [List.filter_append, List.getLast?_append, Option.map_or]

theorem lastAbout_singleton (d : Declaration) :
    lastAbout subject [d] = if d.subject = subject then some d.requirement else none := by
  by_cases h : d.subject = subject <;> simp [lastAbout, h]

/-- What counts is declared, and declared about the subject. -/
theorem exists_of_lastAbout {declarations : List Declaration} {r : Requirement}
    (h : lastAbout subject declarations = some r) :
    ∃ d ∈ declarations, d.subject = subject ∧ d.requirement = r := by
  obtain ⟨d, hlast, hr⟩ := Option.map_eq_some_iff.mp h
  obtain ⟨hmem, hsubject⟩ := List.mem_filter.mp (List.mem_of_getLast? hlast)
  exact ⟨d, hmem, by simpa using hsubject, hr⟩

/-- Where something is declared about a subject, something counts. -/
theorem isSome_lastAbout {declarations : List Declaration} {d : Declaration} (h : d ∈ declarations)
    (hsubject : d.subject = subject) : (lastAbout subject declarations).isSome = true := by
  have hne : (declarations.filter fun d => d.subject = subject) ≠ [] :=
    List.ne_nil_of_mem (List.mem_filter.mpr ⟨h, by simpa using hsubject⟩)
  unfold lastAbout
  rw [Option.isSome_map, List.getLast?_isSome]
  exact hne

/-- A declaration about something else makes no difference, wherever it is made. -/
theorem lastAbout_insert {d : Declaration} (h : d.subject ≠ subject) (before after : List Declaration) :
    lastAbout subject (before ++ d :: after) = lastAbout subject (before ++ after) := by
  have hcons : lastAbout subject (d :: after) = lastAbout subject after := by
    simp [lastAbout, h]
  rw [lastAbout_append, lastAbout_append, hcons]

/-- Declarations about two different things can be made in either order. -/
theorem lastAbout_swap {d e : Declaration} (h : d.subject ≠ e.subject)
    (before after : List Declaration) :
    lastAbout subject (before ++ d :: e :: after) = lastAbout subject (before ++ e :: d :: after) := by
  by_cases hd : d.subject = subject
  · have he : e.subject ≠ subject := fun he => h (hd.trans he.symm)
    have hleft := lastAbout_insert he (before ++ [d]) after
    have hright := lastAbout_insert he before (d :: after)
    rw [List.append_assoc, List.append_assoc] at hleft
    exact hleft.trans hright.symm
  · have hleft := lastAbout_insert hd before (e :: after)
    have hright := lastAbout_insert hd (before ++ [e]) after
    rw [List.append_assoc, List.append_assoc] at hright
    exact hleft.trans hright.symm

end

end Declaration

/-! ## The last part of a path -/

/-- The segment is what follows the last slash of the path, or all of a path without slashes. -/
def EndsIn (path segment : String) : Prop :=
  '/' ∉ segment.toList ∧ (path = segment ∨ ∃ before, path = before ++ "/" ++ segment)

theorem endsIn_lastSegment (path : String) : EndsIn path (lastSegment path) := by
  have hsegment : (lastSegment path).toList = (path.toList.reverse.takeWhile (· != '/')).reverse :=
    String.toList_ofList
  have hsplit : path.toList =
      (path.toList.reverse.dropWhile (· != '/')).reverse ++ (lastSegment path).toList := by
    rw [hsegment, ← List.reverse_append, List.takeWhile_append_dropWhile, List.reverse_reverse]
  constructor
  · intro hslash
    rw [hsegment, List.mem_reverse] at hslash
    have hother := List.all_eq_true.mp (List.all_takeWhile (l := path.toList.reverse)) _ hslash
    exact absurd hother (by decide)
  · cases hrest : path.toList.reverse.dropWhile (· != '/') with
    | nil =>
      left
      rw [hrest, List.reverse_nil, List.nil_append] at hsplit
      exact String.toList_inj.mp hsplit
    | cons c rest =>
      -- What ends the segment from the left is a slash.
      have hc : c = '/' := by
        have hhead := List.head?_dropWhile_not (· != '/') path.toList.reverse
        rw [hrest] at hhead
        simpa using hhead
      right
      refine ⟨String.ofList rest.reverse, String.toList_inj.mp ?_⟩
      rw [hrest] at hsplit
      simpa [hc] using hsplit

theorem endsIn_iff {path segment : String} : EndsIn path segment ↔ segment = lastSegment path := by
  constructor
  · rintro ⟨hslash, hpath⟩
    have hkept : ∀ c ∈ segment.toList.reverse, (c != '/') = true := by
      intro c hc
      rw [bne_iff_ne]
      rintro rfl
      exact hslash (List.mem_reverse.mp hc)
    have hrest : ∃ rest, path.toList.reverse = segment.toList.reverse ++ rest ∧
        rest.takeWhile (· != '/') = [] := by
      rcases hpath with rfl | ⟨before, rfl⟩
      · exact ⟨[], by simp, rfl⟩
      · exact ⟨'/' :: before.toList.reverse, by simp, by simp⟩
    obtain ⟨rest, hpath', hnone⟩ := hrest
    have htake : path.toList.reverse.takeWhile (· != '/') = segment.toList.reverse := by
      rw [hpath', List.takeWhile_append_of_pos hkept, hnone, List.append_nil]
    rw [lastSegment, htake, List.reverse_reverse, String.ofList_toList]
  · rintro rfl
    exact endsIn_lastSegment path

/-! ## What a registry holds -/

namespace Registry

/-- What is declared in the registry about a subject. -/
def declared (r : Registry) : Subject → Option Requirement
  | (service, some key) => (r.rules service).methods.get? key
  | (service, none) => (r.rules service).standard

theorem rules_insert (r : Registry) (owner service : String) (rules : ServiceRules) :
    (Registry.mk (r.services.insert owner rules)).rules service =
      if owner = service then rules else r.rules service := by
  unfold Registry.rules
  rw [Table.get?_insert]
  by_cases h : owner = service <;> simp [h]

/-- A declaration replaces what was declared about its subject, and nothing else. -/
theorem declared_declare (r : Registry) (d : Declaration) (subject : Subject) :
    (r.declare d).declared subject =
      if d.subject = subject then some d.requirement else r.declared subject := by
  obtain ⟨service, key?⟩ := subject
  cases d with
  | method owner key requirement =>
    cases key? with
    | none =>
      simp only [declare, declared, rules_insert, Declaration.subject]
      by_cases h : owner = service <;> simp [h]
    | some key' =>
      simp only [declare, declared, rules_insert, Declaration.subject, Declaration.requirement]
      by_cases h : owner = service
      · by_cases hkey : key = key' <;> simp [h, hkey, Table.get?_insert]
      · simp [h]
  | service owner requirement =>
    simp only [declare]
    cases key? with
    | none =>
      simp only [declared, rules_insert, Declaration.subject, Declaration.requirement]
      by_cases h : owner = service <;> simp [h]
    | some key' =>
      simp only [declared, rules_insert, Declaration.subject]
      by_cases h : owner = service <;> simp [h]

theorem declared_empty (subject : Subject) : empty.declared subject = none := by
  obtain ⟨service, _ | key⟩ := subject <;> rfl

theorem declared_foldl (r : Registry) (declarations : List Declaration) (subject : Subject) :
    (declarations.foldl declare r).declared subject =
      (Declaration.lastAbout subject declarations).or (r.declared subject) := by
  induction declarations generalizing r with
  | nil => rfl
  | cons d declarations ih =>
    have hcons : Declaration.lastAbout subject (d :: declarations) =
        (Declaration.lastAbout subject declarations).or (Declaration.lastAbout subject [d]) :=
      Declaration.lastAbout_append [d] declarations
    rw [Declaration.lastAbout_singleton] at hcons
    rw [List.foldl_cons, ih, declared_declare, hcons, Option.or_assoc]
    split <;> rfl

/-- A registry holds of each subject what was declared about it last. -/
theorem declared_ofDeclarations (declarations : List Declaration) (subject : Subject) :
    (ofDeclarations declarations).declared subject =
      Declaration.lastAbout subject declarations := by
  rw [ofDeclarations, declared_foldl, declared_empty, Option.or_none]

/-- A method is looked up by its path, then by the last part of it, and then as one of its service. -/
theorem find?_eq (r : Registry) (method service : String) :
    r.find? method service =
      ((r.declared (service, some method)).or
        (r.declared (service, some (lastSegment method)))).or (r.declared (service, none)) := by
  simp only [find?, declared, Option.orElse_eq_orElse, Option.orElse_eq_or, Option.or_assoc]

end Registry

/-! ## What a method resolves to -/

namespace Declaration

/-- The declaration can make a difference to the method of the service: it is about the service as a
whole, or about a method whose key is the path or the last part of it. -/
def Concerns (d : Declaration) (method service : String) : Prop :=
  d.subject.1 = service ∧ ∀ key ∈ d.subject.2, key = method ∨ EndsIn method key

/-- What counts for a method of a service, if something does. -/
def counting (declarations : List Declaration) (method service : String) : Option Requirement :=
  ((lastAbout (service, some method) declarations).or
    (lastAbout (service, some (lastSegment method)) declarations)).or
      (lastAbout (service, none) declarations)

variable {declarations : List Declaration} {method service : String}

/-- What counts is declared of the service. -/
theorem exists_of_counting {r : Requirement} (h : counting declarations method service = some r) :
    ∃ d ∈ declarations, d.subject.1 = service ∧ d.requirement = r := by
  have hlast : ∃ key?, lastAbout (service, key?) declarations = some r := by
    simp only [counting, Option.or_eq_some_iff] at h
    rcases h with (h | ⟨-, h⟩) | ⟨-, h⟩ <;> exact ⟨_, h⟩
  obtain ⟨key?, hlast⟩ := hlast
  obtain ⟨d, hmem, hsubject, hr⟩ := exists_of_lastAbout hlast
  exact ⟨d, hmem, congrArg Prod.fst hsubject, hr⟩

/-- If there is a declaration of the service as a whole, something counts for all of its methods. -/
theorem isSome_counting {d : Declaration} (hmem : d ∈ declarations)
    (h : d.subject = (service, none)) (method : String) :
    (counting declarations method service).isSome = true := by
  have hsome := isSome_lastAbout hmem h
  simp [counting, Option.isSome_or, hsome]

/-- Where the whole path is declared, nothing else counts. -/
theorem counting_of_declared {d : Declaration} (hmem : d ∈ declarations)
    (h : d.subject = (service, some method)) :
    counting declarations method service = lastAbout (service, some method) declarations := by
  obtain ⟨r, hr⟩ := Option.isSome_iff_exists.mp (isSome_lastAbout hmem h)
  simp [counting, hr]

theorem counting_insert {d : Declaration} (h : ¬ d.Concerns method service)
    (before after : List Declaration) :
    counting (before ++ d :: after) method service = counting (before ++ after) method service := by
  -- A subject at which the method is looked up would make the declaration concern it.
  have hother {key? : Option String} (hkey : ∀ key ∈ key?, key = method ∨ EndsIn method key) :
      d.subject ≠ (service, key?) := by
    intro hsubject
    refine h ⟨congrArg Prod.fst hsubject, ?_⟩
    rw [hsubject]
    exact hkey
  have hwhole : d.subject ≠ (service, some method) := hother (by simp)
  have hpart : d.subject ≠ (service, some (lastSegment method)) :=
    hother (by simp [endsIn_lastSegment])
  have hall : d.subject ≠ (service, none) := hother (by simp)
  unfold counting
  rw [lastAbout_insert hwhole, lastAbout_insert hpart, lastAbout_insert hall]

end Declaration

namespace Registry

open Declaration

theorem resolver_ofDeclarations (declarations : List Declaration) (method service : String) :
    (ofDeclarations declarations).resolver method service =
      match counting declarations method service with
      | some requirement => ⟨requirement, []⟩
      | none => ⟨.free, [.undeclared method service]⟩ := by
  have hfind : (ofDeclarations declarations).find? method service =
      counting declarations method service := by
    rw [find?_eq]
    simp only [declared_ofDeclarations, counting]
  unfold resolver
  cases h : counting declarations method service <;> simp only [hfind, h]

/-- What a method of a service resolves to among declarations that were made one after the other: to the
last one about its whole path, or else to the last one about what follows the last slash, or else to
the last one about the service as a whole; and if there is none of them, no operation is required, on a
resource without a name, and it is logged that nothing was declared.

So declarations about different things can be made in either order. Once the whole path is declared,
no declaration about anything else makes a difference. A service that is declared as a whole has no
methods about which nothing is declared. And a declaration makes a difference to no methods but those of
its service, and, if it is about a method, to those whose path or last part is its key. -/
theorem last_declaration_counts (declarations : List Declaration) (method service : String) :
    let resolved := fun declarations => (ofDeclarations declarations).resolver method service
    (∃ segment, (∀ last, EndsIn method last ↔ last = segment) ∧
      resolved declarations =
        match ((lastAbout (service, some method) declarations).or
          (lastAbout (service, some segment) declarations)).or
            (lastAbout (service, none) declarations) with
        | some requirement => ⟨requirement, []⟩
        | none => ⟨⟨"", .empty⟩, [.undeclared method service]⟩) ∧
    (∀ before d e after, declarations = before ++ d :: e :: after → d.subject ≠ e.subject →
      resolved (before ++ e :: d :: after) = resolved declarations) ∧
    (∀ before d after, declarations = before ++ d :: after →
      (∃ e ∈ before ++ after, e.subject = (service, some method)) →
      d.subject ≠ (service, some method) →
      resolved declarations = resolved (before ++ after)) ∧
    ((∃ d ∈ declarations, d.subject = (service, none)) →
      ∃ d ∈ declarations, d.subject.1 = service ∧ resolved declarations = ⟨d.requirement, []⟩) ∧
    (∀ before d after, declarations = before ++ d :: after → ¬ d.Concerns method service →
      resolved declarations = resolved (before ++ after)) := by
  intro resolved
  have hcongr {ds ds' : List Declaration}
      (h : counting ds method service = counting ds' method service) : resolved ds = resolved ds' := by
    simp only [resolved, resolver_ofDeclarations, h]
  refine ⟨⟨lastSegment method, fun _ => endsIn_iff, resolver_ofDeclarations _ _ _⟩, ?_, ?_, ?_, ?_⟩
  · rintro before d e after rfl hne
    refine hcongr ?_
    simp only [counting, lastAbout_swap hne]
  · rintro before d after rfl ⟨e, he, hsubject⟩ hd
    have he' : e ∈ before ++ d :: after := by
      rcases List.mem_append.mp he with he | he
      · exact List.mem_append_left _ he
      · exact List.mem_append_right _ (List.mem_cons_of_mem _ he)
    refine hcongr ?_
    rw [counting_of_declared he' hsubject, counting_of_declared he hsubject, lastAbout_insert hd]
  · rintro ⟨d, hmem, hsubject⟩
    obtain ⟨r, hr⟩ := Option.isSome_iff_exists.mp (isSome_counting hmem hsubject method)
    obtain ⟨e, hemem, hservice, rfl⟩ := exists_of_counting hr
    refine ⟨e, hemem, hservice, ?_⟩
    simp only [resolved, resolver_ofDeclarations, hr]
  · rintro before d after rfl hd
    exact hcongr (counting_insert hd before after)

/-- The method is declared by its path before it is opened to everybody by its name, and then the service
and another one are declared as a whole. -/
theorem last_declaration_counts_whole_path :
    let whole : Declaration := .method "orders" "/shop.Orders/List" (.of "order" ["read"])
    let bare : Declaration := .method "orders" "List" .free
    let standard : Declaration := .service "orders" (.of "order" ["write"])
    let foreign : Declaration := .method "billing" "List" (.of "invoice" ["read"])
    let resolved := fun declarations => (ofDeclarations declarations).resolver "/shop.Orders/List" "orders"
    resolved [whole, bare, standard, foreign] = ⟨.of "order" ["read"], []⟩ ∧
      resolved [bare, whole, standard, foreign] = resolved [whole, bare, standard, foreign] ∧
      resolved [whole, bare, standard, foreign] = resolved [whole, standard, foreign] ∧
      resolved [whole, bare, standard, foreign] = resolved [whole, bare, standard] ∧
      ∃ d ∈ [whole, bare, standard, foreign], d.subject.1 = "orders" ∧
        resolved [whole, bare, standard, foreign] = ⟨d.requirement, []⟩ := by
  intro whole bare standard foreign resolved
  obtain ⟨-, hswap, hwhole, hstandard, hforeign⟩ :=
    last_declaration_counts [whole, bare, standard, foreign] "/shop.Orders/List" "orders"
  refine ⟨by decide +kernel, ?_, ?_, ?_, ?_⟩
  · exact hswap [] whole bare [standard, foreign] rfl (by decide)
  · exact hwhole [whole] bare [standard, foreign] rfl ⟨whole, by simp, rfl⟩ (by decide)
  · exact hforeign [whole, bare, standard] foreign [] rfl fun h => absurd h.1 (by decide)
  · exact hstandard ⟨standard, by simp, rfl⟩

end Registry

end CallGate
