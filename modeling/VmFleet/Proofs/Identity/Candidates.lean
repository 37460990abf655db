/-
This file proves that a search for an identity takes the first candidate that can be
used. The candidates stand in a row: the requested identity and the drawn ones. The
source of hardware addresses is asked about those alone that are no placeholder and
free, in their order, until it answers; it may refuse as it likes, also differently
when it is asked again. So what a search asks, draws and finds is read off the row.
-/

import VmFleet.Supervision.Daemon

namespace VmFleet.Registry

/-! ### The row of candidates -/

/-- So many candidates from some drawn identity on, with the first one given. -/
def candidatesFrom (draws : Nat → Uuid) : Nat → Nat → String → List String
  | 0, _, _ => []
  | attempts + 1, drawn, candidate =>
    candidate :: candidatesFrom draws attempts (drawn + 1) (draws drawn).canonical

/-- The candidates for a requested identity: this one and seven that are drawn. -/
def candidates (draws : Nat → Uuid) (requested : String) : List String :=
  normalize requested :: (List.range 7).map fun number => (draws number).canonical

theorem candidatesFrom_maxIdentityAttempts (draws : Nat → Uuid) (requested : String) :
    candidatesFrom draws maxIdentityAttempts 0 (normalize requested) =
      candidates draws requested := rfl

variable (registry : Registry) (macs : MacSource)

/-- Whether a candidate is worth asking about: it is no placeholder, and it is free. -/
def isEligible (candidate : String) : Bool :=
  candidate != Vm.randomUuid && !registry.contains candidate

/-- The candidates of a row that are worth asking about. -/
def eligible (row : List String) : List String :=
  row.filter registry.isEligible

/-- No candidate of a row has a hardware address when they are asked about in turn. -/
def Refuses (row : List String) : Prop :=
  ∀ asked candidate, (registry.eligible row)[asked]? = some candidate →
    ∃ error, macs asked candidate = .error error

/-- How a search goes over a row of candidates. -/
inductive Searches (row : List String) : IdentitySearch → Prop
  /-- All candidates before the found one are refused or not worth asking about. -/
  | found (before after : List String) (candidate mac : String)
    (split : row = before ++ candidate :: after) (refused : registry.Refuses macs before)
    (eligible : registry.isEligible candidate = true)
    (derived : macs (registry.eligible before).length candidate = .ok mac) :
    Searches row ⟨registry.eligible before ++ [candidate], before.length, .ok ⟨mac, candidate⟩⟩
  /-- No candidate can be used. -/
  | exhausted (refused : registry.Refuses macs row) :
    Searches row
      ⟨registry.eligible row, row.length, .error (.identityExhausted maxIdentityAttempts)⟩

variable {registry macs} {row before after : List String} {candidate : String}

theorem isEligible_iff : registry.isEligible candidate = true ↔
    candidate ≠ Vm.randomUuid ∧ registry.contains candidate = false := by
  simp [isEligible]

theorem not_isEligible_iff : ¬ registry.isEligible candidate = true ↔
    candidate = Vm.randomUuid ∨ registry.contains candidate = true := by
  rw [isEligible_iff, Decidable.not_and_iff_not_or_not, Decidable.not_not, Bool.not_eq_false]

@[simp]
theorem eligible_append :
    registry.eligible (before ++ after) = registry.eligible before ++ registry.eligible after :=
  List.filter_append before after

theorem eligible_singleton (worthy : registry.isEligible candidate = true) :
    registry.eligible [candidate] = [candidate] :=
  List.filter_cons_of_pos worthy

theorem eligible_singleton_of_not (unworthy : ¬ registry.isEligible candidate = true) :
    registry.eligible [candidate] = [] :=
  List.filter_cons_of_neg unworthy

theorem refuses_nil : registry.Refuses macs [] := nofun

/-- One more candidate is refused, or it is not worth asking about. -/
theorem Refuses.concat (refused : registry.Refuses macs before)
    (further : registry.isEligible candidate = true →
      ∃ error, macs (registry.eligible before).length candidate = .error error) :
    registry.Refuses macs (before ++ [candidate]) := by
  intro asked other present
  by_cases worthy : registry.isEligible candidate = true
  · rw [eligible_append, eligible_singleton worthy, List.getElem?_append] at present
    split at present
    · exact refused asked other present
    · rename_i outside
      obtain ⟨last, rfl⟩ := List.getElem?_eq_some_iff.mp present
      rw [List.length_singleton] at last
      obtain rfl : asked = (registry.eligible before).length := by omega
      simpa using further worthy
  · rw [eligible_append, eligible_singleton_of_not worthy, List.append_nil] at present
    exact refused asked other present

/-! ### The search -/

/-- The rest of a search goes over the rest of the row, after candidates that cannot be used. -/
theorem searches_tryCandidates (draws : Nat → Uuid) (attempts : Nat) (candidate : String)
    (refused : registry.Refuses macs before) :
    registry.Searches macs (before ++ candidatesFrom draws attempts before.length candidate)
      (registry.tryCandidates macs draws attempts before.length (registry.eligible before)
        candidate) := by
  induction attempts generalizing before candidate with
  | zero =>
    rw [candidatesFrom, List.append_nil]
    exact .exhausted refused
  | succ attempts inductionHypothesis =>
    have onward : ∀ asked, asked = registry.eligible (before ++ [candidate]) →
        registry.Refuses macs (before ++ [candidate]) →
        registry.Searches macs
          (before ++ candidatesFrom draws (attempts + 1) before.length candidate)
          (registry.tryCandidates macs draws attempts (before.length + 1) asked
            (draws before.length).canonical) := by
      rintro _ rfl refused
      have rest := inductionHypothesis (draws before.length).canonical refused
      rw [List.length_append, List.length_singleton, List.append_assoc] at rest
      exact rest
    unfold tryCandidates
    by_cases worthy : registry.isEligible candidate = true
    · obtain ⟨proper, free⟩ := isEligible_iff.mp worthy
      simp only [proper, free, Bool.false_eq_true, or_self, if_false]
      cases derived : macs (registry.eligible before).length candidate with
      | ok mac => exact .found before _ candidate mac rfl refused worthy derived
      | error error =>
        refine onward _ ?_ (refused.concat fun _ => ⟨error, derived⟩)
        rw [eligible_append, eligible_singleton worthy]
    · simp only [not_isEligible_iff.mp worthy, if_true]
      refine onward _ ?_ (refused.concat fun worthy' => absurd worthy' worthy)
      rw [eligible_append, eligible_singleton_of_not worthy, List.append_nil]

theorem searches_resolveIdentity (registry : Registry) (macs : MacSource) (draws : Nat → Uuid)
    (requested : String) :
    registry.Searches macs (candidates draws requested)
      (registry.resolveIdentity macs draws requested) := by
  rw [← candidatesFrom_maxIdentityAttempts]
  exact searches_tryCandidates draws maxIdentityAttempts (normalize requested) refuses_nil

/-- A row with a candidate that is answered is not refused. -/
theorem not_refuses (eligible : registry.isEligible candidate = true) {mac : String}
    (derived : macs (registry.eligible before).length candidate = .ok mac) :
    ¬ registry.Refuses macs (before ++ candidate :: after) := by
  intro refused
  obtain ⟨error, failed⟩ := refused (registry.eligible before).length candidate (by
    rw [← List.singleton_append, eligible_append, eligible_append, eligible_singleton eligible]
    simp)
  rw [derived] at failed
  cases failed

/-- The first candidate that is answered is one and the same. -/
theorem eq_of_first {others rest : List String} {other mac name : String}
    (refused : registry.Refuses macs before) (eligible : registry.isEligible candidate = true)
    (derived : macs (registry.eligible before).length candidate = .ok mac)
    (refused' : registry.Refuses macs others) (eligible' : registry.isEligible other = true)
    (derived' : macs (registry.eligible others).length other = .ok name)
    (same : before ++ candidate :: after = others ++ other :: rest) :
    before = others ∧ candidate = other := by
  rcases List.append_eq_append_iff.mp same with ⟨more, rfl, tail⟩ | ⟨more, rfl, tail⟩
  · cases more with
    | nil => exact ⟨(List.append_nil before).symm, (List.cons.inj tail).1⟩
    | cons head more =>
      obtain ⟨rfl, -⟩ := List.cons.inj tail
      exact absurd refused' (not_refuses eligible derived)
  · cases more with
    | nil => exact ⟨List.append_nil others, (List.cons.inj tail).1.symm⟩
    | cons head more =>
      obtain ⟨rfl, -⟩ := List.cons.inj tail
      exact absurd refused (not_refuses eligible' derived')

/-- There is one way to search a row. -/
theorem Searches.unique {search other : IdentitySearch}
    (searched : registry.Searches macs row search) (again : registry.Searches macs row other) :
    search = other := by
  cases searched with
  | found before after candidate mac split refused eligible derived =>
    cases again with
    | found others rest other name split' refused' eligible' derived' =>
      obtain ⟨rfl, rfl⟩ := eq_of_first refused eligible derived refused' eligible' derived'
        (split.symm.trans split')
      obtain rfl := Except.ok.inj (derived.symm.trans derived')
      rfl
    | exhausted refused' => exact absurd (split ▸ refused') (not_refuses eligible derived)
  | exhausted refused =>
    cases again with
    | found others rest other name split' refused' eligible' derived' =>
      exact absurd (split' ▸ refused) (not_refuses eligible' derived')
    | exhausted refused' => rfl

/-- What a search asks about: candidates of its row in their order, each of them once at most and
only those that are worth it, and none after an answer. -/
structure AsksInTurn (registry : Registry) (macs : MacSource) (row asked : List String) :
    Prop where
  inOrder : asked.Sublist row
  worthy : ∀ candidate ∈ asked, candidate ≠ Vm.randomUuid ∧ registry.contains candidate = false
  untilAnswered : ∀ number candidate, asked[number]? = some candidate →
    number + 1 < asked.length → ∃ error, macs number candidate = .error error

theorem Searches.asksInTurn {search : IdentitySearch}
    (searched : registry.Searches macs row search) :
    registry.AsksInTurn macs row search.asked := by
  have worthy : ∀ {row : List String}, ∀ candidate ∈ registry.eligible row,
      candidate ≠ Vm.randomUuid ∧ registry.contains candidate = false :=
    fun candidate member => isEligible_iff.mp (List.mem_filter.mp member).2
  cases searched with
  | found before after candidate mac split refused eligible derived =>
    subst split
    refine ⟨?_, fun other member => ?_, fun number other present early => ?_⟩
    · exact List.filter_sublist.append (List.singleton_sublist.mpr List.mem_cons_self)
    · rcases List.mem_append.mp member with earlier | last
      · exact worthy other earlier
      · obtain rfl := List.mem_singleton.mp last
        exact isEligible_iff.mp eligible
    · have early : number + 1 < (registry.eligible before ++ [candidate]).length := early
      rw [List.length_append, List.length_singleton] at early
      exact refused number other
        ((List.getElem?_append_left (Nat.lt_of_succ_lt_succ early)).symm.trans present)
  | exhausted refused =>
    exact ⟨List.filter_sublist, worthy, fun number other present _ => refused number other present⟩

/-- What a search finds is worth asking about and was answered when it was asked about last. -/
theorem Searches.answered {search : IdentitySearch} {identity : Identity}
    (searched : registry.Searches macs row search) (found : search.outcome = .ok identity) :
    registry.isEligible identity.uuid = true ∧
      ∃ asked, search.asked.length = asked + 1 ∧ macs asked identity.uuid = .ok identity.mac := by
  cases searched with
  | found before after candidate mac split refused eligible derived =>
    obtain rfl := Except.ok.inj found
    exact ⟨eligible, _, List.length_append, derived⟩
  | exhausted refused => cases found

/-! ### A requested identity -/

theorem canonical_ne_randomUuid (uuid : Uuid) : uuid.canonical ≠ Vm.randomUuid := by
  intro same
  have read := Uuid.parse?_canonical uuid
  rw [same] at read
  exact absurd (read.symm.trans (by decide +kernel : Uuid.parse? Vm.randomUuid = none)) nofun

section Kept

variable {draws : Nat → Uuid} {requested : String} {uuid : Uuid}

theorem candidates_of_parse? (spelled : Uuid.parse? requested = some uuid) :
    candidates draws requested =
      uuid.canonical :: (List.range 7).map fun number => (draws number).canonical := by
  unfold candidates normalize
  rw [spelled]

/-- An identity that is free and derivable is taken as it was requested. -/
theorem resolveIdentity_of_free (spelled : Uuid.parse? requested = some uuid) {mac : String}
    (free : registry.contains uuid.canonical = false) (derived : macs 0 uuid.canonical = .ok mac) :
    registry.resolveIdentity macs draws requested =
      ⟨[uuid.canonical], 0, .ok ⟨mac, uuid.canonical⟩⟩ := by
  have searched := searches_resolveIdentity registry macs draws requested
  rw [candidates_of_parse? spelled] at searched
  exact searched.unique (.found [] _ uuid.canonical mac rfl refuses_nil
    (isEligible_iff.mpr ⟨canonical_ne_randomUuid uuid, free⟩) derived)

/-- An identity is taken as it was requested only if it is free and derivable. -/
theorem kept_iff (spelled : Uuid.parse? requested = some uuid) :
    (∃ mac, registry.resolveIdentity macs draws requested =
        ⟨[uuid.canonical], 0, .ok ⟨mac, uuid.canonical⟩⟩) ↔
      registry.contains uuid.canonical = false ∧ ∃ mac, macs 0 uuid.canonical = .ok mac := by
  constructor
  · rintro ⟨mac, kept⟩
    have searched := searches_resolveIdentity registry macs draws requested
    rw [kept] at searched
    obtain ⟨eligible, asked, length, derived⟩ := searched.answered rfl
    obtain rfl : 0 = asked := Nat.succ.inj length
    exact ⟨(isEligible_iff.mp eligible).2, mac, derived⟩
  · rintro ⟨free, mac, derived⟩
    exact ⟨mac, resolveIdentity_of_free spelled free derived⟩

/-- Where a source always says the same, no drawn identity is the requested one either. -/
theorem found_iff (spelled : Uuid.parse? requested = some uuid)
    (steady : ∀ asked, macs asked = macs 0) :
    (∃ mac, (registry.resolveIdentity macs draws requested).outcome =
        .ok ⟨mac, uuid.canonical⟩) ↔
      registry.contains uuid.canonical = false ∧ ∃ mac, macs 0 uuid.canonical = .ok mac := by
  constructor
  · rintro ⟨mac, found⟩
    obtain ⟨eligible, asked, -, derived⟩ :=
      (searches_resolveIdentity registry macs draws requested).answered found
    rw [steady asked] at derived
    exact ⟨(isEligible_iff.mp eligible).2, mac, derived⟩
  · rintro ⟨free, mac, derived⟩
    refine ⟨mac, ?_⟩
    rw [resolveIdentity_of_free spelled free derived]

end Kept

/-- A search goes over the requested identity and seven drawn ones and finds the first that can be
used, whatever the source of addresses refuses. It asks about each candidate once at most, only
about such as are worth it, and about none after an answer; so an explicit identity is kept exactly
if it is free and derivable. To search changes nothing that the lock guards. -/
theorem resolves_first_usable (registry : Registry) (macs : MacSource) (draws : Nat → Uuid)
    (requested : String) :
    (∀ search, registry.Searches macs (candidates draws requested) search ↔
        registry.resolveIdentity macs draws requested = search) ∧
      registry.AsksInTurn macs (candidates draws requested)
        (registry.resolveIdentity macs draws requested).asked ∧
      (∀ uuid, Uuid.parse? requested = some uuid →
        ((∃ mac, registry.resolveIdentity macs draws requested =
            ⟨[uuid.canonical], 0, .ok ⟨mac, uuid.canonical⟩⟩) ↔
          registry.contains uuid.canonical = false ∧ ∃ mac, macs 0 uuid.canonical = .ok mac) ∧
        ((∀ asked, macs asked = macs 0) →
          ((∃ mac, (registry.resolveIdentity macs draws requested).outcome =
              .ok ⟨mac, uuid.canonical⟩) ↔
            registry.contains uuid.canonical = false ∧ ∃ mac, macs 0 uuid.canonical = .ok mac))) ∧
      ∀ daemon : Daemon, (daemon.lookUpIdentity draws requested).1.shared = daemon.shared := by
  have searched := searches_resolveIdentity registry macs draws requested
  refine ⟨fun search => ⟨searched.unique, ?_⟩, searched.asksInTurn, fun uuid spelled => ?_,
    fun daemon => rfl⟩
  · rintro rfl
    exact searched
  · exact ⟨kept_iff spelled, found_iff spelled⟩

/-- The UUID whose octets are all the same. -/
def uniformUuid (octet : UInt8) : Uuid :=
  ⟨List.replicate 16 octet, rfl⟩

/-- A registry in which one identity is taken. -/
def oneTaken : Registry :=
  ⟨Keyed.empty.insert (uniformUuid 5).canonical ⟨Vm.draft "alpha" "1.2.3", 0⟩, []⟩

/-- Draws that give the taken identity once and a free one after that. -/
def drawnTwice : Nat → Uuid
  | 0 => uniformUuid 5
  | _ => uniformUuid 7

/-- A taken identity is not given again, neither when it is asked for in another spelling nor when
it is drawn. The first free one that is drawn is asked about, and asked about again when it is
drawn again. -/
theorem resolves_first_usable_of_oneTaken :
    (¬ ∃ mac, (oneTaken.resolveIdentity MacSource.ofOctets drawnTwice
        "05050505050505050505050505050505").outcome = .ok ⟨mac, (uniformUuid 5).canonical⟩) ∧
      oneTaken.resolveIdentity (MacSource.failingFirst 1) drawnTwice
          "05050505050505050505050505050505" =
        ⟨[(uniformUuid 7).canonical, (uniformUuid 7).canonical], 3,
          .ok ⟨"06:07:07:07:07:07", (uniformUuid 7).canonical⟩⟩ := by
  constructor
  · obtain ⟨-, -, kept, -⟩ := resolves_first_usable oneTaken MacSource.ofOctets drawnTwice
      "05050505050505050505050505050505"
    obtain ⟨-, found⟩ := kept (uniformUuid 5) (by decide +kernel)
    rw [found fun _ => rfl]
    rintro ⟨free, -⟩
    exact absurd free (by decide +kernel)
  · obtain ⟨finds, -⟩ := resolves_first_usable oneTaken (MacSource.failingFirst 1) drawnTwice
      "05050505050505050505050505050505"
    have refused : oneTaken.Refuses (MacSource.failingFirst 1)
        [(uniformUuid 5).canonical, (uniformUuid 5).canonical, (uniformUuid 7).canonical] := by
      intro asked candidate present
      obtain ⟨inside, -⟩ := List.getElem?_eq_some_iff.mp present
      rw [show asked = 0 from Nat.lt_one_iff.mp inside]
      exact ⟨_, rfl⟩
    refine (finds _).mp ?_
    exact .found _ (List.replicate 4 (uniformUuid 7).canonical) _ _ (by decide +kernel) refused
      (by decide +kernel) (by rfl)

end VmFleet.Registry
