import CompileWatch.Proofs.Chronicle
import CompileWatch.Proofs.Retrievals
import CompileWatch.Proofs.Stopping

/-!
# Where a retrieved artifact comes from

A call that returns an artifact, or the number of the diagnostics in one, has found it in the slot
while the call was under way. What the slot holds is as the chronicle of one attempt tells, so that
the result of a call goes back to one compile of exactly the text that was asked for.
-/
namespace CompileWatch

/-- What the answer of a compiler says of the artifact that is made of it. -/
theorem Attempt.artifactOf?_cases {α : Type} {source : String} {g : Generation}
    {outcome : Outcome α} {a : Artifact α} (h : artifactOf? source g outcome = some a) :
    (∃ v, outcome = .value v ∧ a.value? = some v) ∨
      a.value? = none ∧
        ((∃ ds, outcome = .refused (.diagnostics ds) ∧
            a.diagnostics = if ds = [] then [Artifact.unexplained] else ds) ∨
          ∃ payload, outcome = .panicked payload ∧
            a.diagnostics = [.error ("compiler panicked: " ++ payload.text)]) := by
  cases outcome with
  | value v => cases h; exact .inl ⟨v, rfl, rfl⟩
  | refused why =>
    cases why with
    | diagnostics ds =>
      cases h
      exact .inr ⟨Artifact.value?_failed _ _ ds,
        .inl ⟨ds, rfl, Artifact.diagnostics_failed source g ds⟩⟩
    | canceled => cases h
  | panicked payload => cases h; exact .inr ⟨rfl, .inr ⟨payload, rfl, rfl⟩⟩

namespace Retrieval

variable {α : Type}

theorem resultOf_eq_ok_iff {a b : Artifact α} :
    resultOf a = .ok b ↔ a = b ∧ a.value?.isSome = true := by
  unfold resultOf Artifact.value?
  cases a.content <;> simp

theorem resultOf_eq_diagnostics_iff {a : Artifact α} {count : Nat} :
    resultOf a = .error (.diagnostics count) ↔ a.value? = none ∧ a.diagnostics.length = count := by
  unfold resultOf Artifact.value? Artifact.diagnostics
  cases a.content <;> simp

/-- What a call is to come to, as soon as that is settled. -/
def outcome? (r : Retrieval α) : Option (RetrievalResult α) :=
  match r.stage with
  | .matched a _ => some (resultOf a)
  | .overdue _ => some (.error (.timedOut r.code r.timeout))
  | .reporting result _ _ | .settled result _ => some result
  | _ => none

theorem outcome?_of_result? {r : Retrieval α} {result : RetrievalResult α} {waited : Nat}
    (h : r.result? = some (result, waited)) : r.outcome? = some result := by
  unfold result? at h
  split at h
  · next hs => cases h; simp only [outcome?, hs]
  · cases h

/-- A call for `code` comes to nothing but what it has seen, or to a failure at its deadline. -/
structure GoesBy (r : Retrieval α) (code : String) (seen : List (Artifact α)) : Prop where
  code_eq : r.code = code
  outcome {result : RetrievalResult α} : r.outcome? = some result →
    result = .error (.timedOut r.code r.timeout) ∨
      ∃ a ∈ seen, a.source = code ∧ result = resultOf a

theorem GoesBy.mono {r : Retrieval α} {code : String} {seen more : List (Artifact α)}
    (h : r.GoesBy code seen) : r.GoesBy code (seen ++ more) where
  code_eq := h.code_eq
  outcome hresult := (h.outcome hresult).imp_right fun ⟨a, ha, hsource⟩ =>
    ⟨a, List.mem_append_left more ha, hsource⟩

/-- A call that has yet to look comes to nothing so far. -/
theorem GoesBy.of_outcome? {r : Retrieval α} {code : String} {seen : List (Artifact α)}
    (hcode : r.code = code) (hnone : r.outcome? = none) : r.GoesBy code seen where
  code_eq := hcode
  outcome hresult := by
    rw [hnone] at hresult
    cases hresult

/-- A call that stays as it is in what it comes to. -/
theorem GoesBy.congr {r r' : Retrieval α} {code : String} {seen : List (Artifact α)}
    (h : r.GoesBy code seen) (hcode : r'.code = r.code) (htimeout : r'.timeout = r.timeout)
    (houtcome : r'.outcome? = r.outcome?) : r'.GoesBy code seen where
  code_eq := hcode.trans h.code_eq
  outcome hresult := by
    rw [hcode, htimeout]
    exact h.outcome (houtcome ▸ hresult)

theorem GoesBy.notify {r : Retrieval α} {code : String} {seen : List (Artifact α)}
    (h : r.GoesBy code seen) : r.notify.GoesBy code seen := by
  unfold Retrieval.notify
  split
  · exact h.congr rfl rfl rfl
  · exact h

end Retrieval

namespace Service

variable {α β : Type} {s t : Service α} {action : Action α} {sent : List Stamped} {i : Nat}
  {code : String} {seen : List (Artifact α)}

/-! ## What a call has seen -/

/-- The artifact of its text that the `i`-th retrieval finds in the slot in an action. -/
def sighting? (i : Nat) (s : Service α) : Action α → Option (Artifact α)
  | .ask j =>
    if j = i then
      (s.call? i).bind fun r =>
        match r.stage with
        | .checking => s.slot.find? r.code
        | _ => none
    else none
  | _ => none

theorem sighting?_eq_some_iff {a : Artifact α} :
    s.sighting? i action = some a ↔
      ∃ r, action = .ask i ∧ s.call? i = some r ∧ r.stage = .checking ∧
        s.slot.find? r.code = some a := by
  constructor
  · intro h
    cases action with
    | ask j =>
      simp only [sighting?, Option.ite_none_right_eq_some] at h
      obtain ⟨rfl, h⟩ := h
      obtain ⟨r, hr, hs⟩ := Option.bind_eq_some_iff.1 h
      split at hs
      · next hstage => exact ⟨r, rfl, hr, hstage, hs⟩
      · cases hs
    | _ => cases h
  · rintro ⟨r, rfl, hr, hstage, hfound⟩
    simp [sighting?, hr, hstage, hfound]

/-- A step of the call of its own goes by what it finds. -/
theorem goesBy_move {r : Retrieval α} {move : Retrieval.Move α} (h : r.GoesBy code seen)
    (hr : s.call? i = some r) (hmove : r.MoveStep s.now s.slot s.board.poll move) :
    move.retrieval.GoesBy code (seen ++ (s.sighting? i (.ask i)).toList) := by
  cases hmove with
  | @find a hstage hfound =>
    have hsight : s.sighting? i (.ask i) = some a :=
      sighting?_eq_some_iff.2 ⟨r, rfl, hr, hstage, hfound⟩
    have hsource : a.source = code := (Slot.find?_eq_some_iff.1 hfound).2.trans h.code_eq
    exact ⟨h.code_eq, fun hresult =>
      .inr ⟨a, by simp [hsight], hsource, (Option.some.inj hresult).symm⟩⟩
  | giveUp _ _ _ => exact ⟨h.code_eq, fun hresult => .inl (Option.some.inj hresult).symm⟩
  | tellFound hstage | tellLate hstage | settle hstage =>
    refine Retrieval.GoesBy.mono (h.congr rfl rfl ?_)
    simp only [Retrieval.outcome?, hstage]
  | arm _ | miss _ _ | park _ _ | parkUntil _ _ _ => exact .of_outcome? h.code_eq rfl

theorem goesBy_step {r : Retrieval α} (h : r.GoesBy code seen) (hr : s.call? i = some r)
    (hstep : Step s action t sent) :
    ∃ r', t.call? i = some r' ∧ r'.GoesBy code (seen ++ (s.sighting? i action).toList) := by
  cases hstep.callStep hr with
  | still hr' _ _ => exact ⟨r, hr', h.mono⟩
  | tick _ ht => subst ht; exact ⟨r, hr, h.mono⟩
  | publish _ hr' _ _ _ => exact ⟨r, hr', h.mono⟩
  | notify hr' _ => exact ⟨r.notify, hr', h.notify.mono⟩
  | move haction hmove hr' _ => subst haction; exact ⟨_, hr', goesBy_move h hr hmove⟩
  | wake _ _ hr' _ => exact ⟨_, hr', .of_outcome? h.code_eq rfl⟩
  | abandon _ hr' _ => exact ⟨_, hr', .of_outcome? h.code_eq rfl⟩

/-! ## From the call back to the compile -/

/-- Where an artifact comes from in a history that ends in the state `t`: one attempt, started by a
run of this service on a snapshot of the text, has got the answer that the artifact is made of, and
the slot took the artifact while the attempt was neither cancelled nor overtaken. -/
structure Provenance (c : Generation → Compiler β α) (origin : Service α)
    (history : List (Action α)) (t : Service α) (code : String) (a : Artifact α)
    (outcome : Outcome α) : Prop where
  source : a.source = code
  compiled : (c a.generation).Gives code outcome
  chronicle : ∃ run r, t.run? run = some r ∧ origin.chronicle a.generation history =
    [.launched run code, .answered outcome, .stored a false false]

/-- Did the slot hold the artifact at some moment of a history at which the `i`-th retrieval was
under way? -/
def Shown (i : Nat) (s : Service α) (actions : List (Action α)) (a : Artifact α) : Prop :=
  ∃ first second u sent r, actions = first ++ second ∧ s.steps? first = some (u, sent) ∧
    u.slot.latest = some a ∧ u.call? i = some r ∧ r.result? = none

theorem shown_of_mem {actions : List (Action α)} {a : Artifact α}
    (h : a ∈ s.observe (sighting? i) actions) : Shown i s actions a := by
  obtain ⟨first, action, second, u, told, rfl, hfirst, hsight⟩ := exists_of_mem_observe h
  obtain ⟨r, -, hr, hstage, hfound⟩ := sighting?_eq_some_iff.1 hsight
  exact ⟨first, action :: second, u, told, r, rfl, hfirst, (Slot.find?_eq_some_iff.1 hfound).1, hr,
    by simp [Retrieval.result?, hstage]⟩

/-- A run does not disappear. -/
theorem Reaches.exists_run? (h : s.Reaches t) {id : Nat} {r : Run} (hr : s.run? id = some r) :
    ∃ r', t.run? id = some r' :=
  h.induct (motive := fun u => ∃ r', u.run? id = some r')
    (fun hu hstep => hu.elim fun _ hr' => (Step.of_step? hstep).exists_run? hr') ⟨r, hr⟩

/-- Whatever the slot holds at some moment of a history, the history tells where it comes from. -/
theorem provenance_of_latest {c : Generation → Compiler β α} {config : Config}
    {sink : MessageSink} {text : String} {before after : List (Action α)} {more : List Stamped}
    {a : Artifact α}
    (hbefore : (ofConfig config sink text : Service α).steps? before = some (s, sent))
    (hafter : s.steps? after = some (t, more))
    (hanswers : (ofConfig config sink text).Along (AnswersAs c) (before ++ after))
    (hlatest : s.slot.latest = some a) :
    ∃ outcome, Attempt.artifactOf? a.source a.generation outcome = some a ∧
      Provenance c (ofConfig config sink text) (before ++ after) t a.source a outcome := by
  have hs : s.Reachable := ⟨config, sink, text, before, sent, hbefore⟩
  have hthen := chronicled_chronicle a.generation hbefore hanswers.of_append
  obtain ⟨b, outcome, hb, hsource, hnotes, ho⟩ := hthen.held hlatest rfl
  rw [← hsource] at hnotes ho
  obtain ⟨r, hr⟩ := hs.tended.owned hb
  obtain ⟨r', hr'⟩ := Reaches.exists_run? ⟨after, more, hafter⟩ hr
  refine ⟨outcome, ho, rfl, ?_, b.run, r', hr', ?_⟩
  · rw [hsource]
    exact hthen.genuine (by simp [hnotes]) hb
  · -- the chronicle was complete then, and it has not become longer since
    have hall := steps?_append_eq_some hbefore hafter
    have hlength := (chronicled_chronicle a.generation hall hanswers).length_le
    rw [chronicle, observe_append hbefore, ← chronicle, hnotes] at hlength ⊢
    simp only [List.length_append, List.length_cons, List.length_nil] at hlength
    have hnil : s.observe (milestone? a.generation) after = [] :=
      List.eq_nil_of_length_eq_zero (by omega)
    rw [hnil]
    rfl

/-- A call for a text that returns an artifact has found it in the slot while it was under way, and
the artifact is the compiled form of exactly that text: the two phases of the compiler have made it
of a snapshot with which a run of this service started the attempt that the artifact names, and the
slot took it while that attempt was neither cancelled nor overtaken by a newer one. A call that
returns a number of diagnostics has found an artifact in the same way, without a compiled form and
with so many diagnostics, at least one: those of the compiler, or the generic one if the compiler
gave none, or the report of its panic. -/
theorem retrieval_provenance {c : Generation → Compiler β α} {config : Config}
    {sink : MessageSink} {text label code : String} {timeout : Span}
    {before after : List (Action α)} {more : List Stamped} {r : Retrieval α}
    {result : RetrievalResult α} {waited : Nat}
    (hcall : (ofConfig config sink text : Service α).steps?
      (before ++ [.retrieve label code timeout]) = some (s, sent))
    (hi : s.board.retrievals.size = i + 1) (hsteps : s.steps? after = some (t, more))
    (hanswers : (ofConfig config sink text).Along (AnswersAs c)
      (before ++ [.retrieve label code timeout] ++ after))
    (hr : t.call? i = some r) (hresult : r.result? = some (result, waited)) :
    (∀ a, result = .ok a →
      Shown i s after a ∧ a.diagnostics = [] ∧ ∃ v, a.value? = some v ∧
        (∃ parsed cancelled later,
          ((c a.generation).parse code cancelled).outcome = .value parsed ∧
          ((c a.generation).compile parsed later).outcome = .value v) ∧
        Provenance c (ofConfig config sink text)
          (before ++ [.retrieve label code timeout] ++ after) t code a (.value v)) ∧
    (∀ count, result = .error (.diagnostics count) →
      ∃ a outcome, Shown i s after a ∧ a.value? = none ∧ a.diagnostics.length = count ∧
        1 ≤ count ∧
        ((∃ ds, outcome = .refused (.diagnostics ds) ∧
            a.diagnostics = if ds = [] then [Artifact.unexplained] else ds) ∨
          ∃ payload, outcome = .panicked payload ∧
            a.diagnostics = [.error ("compiler panicked: " ++ payload.text)]) ∧
        Provenance c (ofConfig config sink text)
          (before ++ [.retrieve label code timeout] ++ after) t code a outcome) := by
  -- the call begins without a result, and comes to nothing but what it sees
  have hbegun : ∃ r₀, s.call? i = some r₀ ∧ r₀.GoesBy code [] := by
    obtain ⟨s₀, told, last, -, hlast⟩ := exists_of_steps?_append hcall
    simp only [steps?, step?, Option.map_some, Option.some.injEq, Prod.mk.injEq] at hlast
    obtain ⟨rfl, -⟩ := hlast
    have hsize : s₀.board.retrievals.size = i := by simpa [Board.call] using hi
    subst hsize
    exact ⟨_, Array.getElem?_push_size, .of_outcome? rfl rfl⟩
  obtain ⟨r', hr', hgoes⟩ : ∃ r', t.call? i = some r' ∧
      r'.GoesBy code (s.observe (sighting? i) after) := by
    refine observe_induct (motive := fun u seen => ∃ r', u.call? i = some r' ∧
      r'.GoesBy code seen) (fun {u v a told seen} _ _ hstep hu => ?_) hsteps hbegun
    obtain ⟨r', hr', hgoes⟩ := hu
    exact goesBy_step hgoes hr' (Step.of_step? hstep)
  rw [hr] at hr'
  cases hr'
  have hsettled := hgoes.outcome (Retrieval.outcome?_of_result? hresult)
  have back (a : Artifact α) (ha : a ∈ s.observe (sighting? i) after) (hsource : a.source = code) :
      Shown i s after a ∧ ∃ outcome, Attempt.artifactOf? code a.generation outcome = some a ∧
        Provenance c (ofConfig config sink text)
          (before ++ [.retrieve label code timeout] ++ after) t code a outcome := by
    subst hsource
    have hshown := shown_of_mem ha
    refine ⟨hshown, ?_⟩
    obtain ⟨first, second, u, told, -, rfl, hfirst, hlatest, -, -⟩ := hshown
    obtain ⟨u', told', more', hfirst', hsecond⟩ := exists_of_steps?_append hsteps
    rw [hfirst] at hfirst'
    cases hfirst'
    rw [← List.append_assoc] at hanswers ⊢
    exact provenance_of_latest (steps?_append_eq_some hcall hfirst) hsecond hanswers hlatest
  refine ⟨fun a hok => ?_, fun count hfailed => ?_⟩
  · subst hok
    rcases hsettled with hlate | ⟨b, hb, hsource, heq⟩
    · cases hlate
    · obtain ⟨rfl, hsome⟩ := Retrieval.resultOf_eq_ok_iff.1 heq.symm
      obtain ⟨hshown, outcome, ho, hprovenance⟩ := back b hb hsource
      refine ⟨hshown, (Artifact.value?_isSome_iff b).1 hsome, ?_⟩
      rcases Attempt.artifactOf?_cases ho with ⟨v, rfl, hv⟩ | ⟨hnone, -⟩
      · exact ⟨v, hv, hprovenance.compiled.exists_of_value, hprovenance⟩
      · rw [hnone] at hsome
        cases hsome
  · subst hfailed
    rcases hsettled with hlate | ⟨b, hb, hsource, heq⟩
    · cases hlate
    · obtain ⟨hnone, hcount⟩ := Retrieval.resultOf_eq_diagnostics_iff.1 heq.symm
      obtain ⟨hshown, outcome, ho, hprovenance⟩ := back b hb hsource
      have hpos : 1 ≤ count := by
        rw [← hcount, Nat.one_le_iff_ne_zero]
        intro hzero
        have hsome := (Artifact.value?_isSome_iff b).2 (List.eq_nil_of_length_eq_zero hzero)
        rw [hnone] at hsome
        cases hsome
      rcases Attempt.artifactOf?_cases ho with ⟨v, -, hv⟩ | ⟨-, hwhy⟩
      · rw [hnone] at hv
        cases hv
      · exact ⟨b, outcome, hshown, hnone, hcount, hpos, hwhy, hprovenance⟩

/-- The text is "a", then "b", then "a" again. The first attempt comes back last before the call. -/
def waveringBefore : List (Action Nat) :=
  [Action.start, Action.tick, Action.poll 1] ++ List.replicate 6 (Action.proceed 1) ++
    [Action.take 1, Action.edit "b", Action.tick, Action.poll 1] ++
    List.replicate 9 (Action.proceed 1) ++
    [Action.edit "a", Action.tick, Action.poll 1] ++ List.replicate 9 (Action.proceed 1) ++
    [Action.take 3, Action.compiled 1 (.value 5), Action.finish 1]

/-- The third attempt comes back, and the call finds what it has made. -/
def waveringAfter : List (Action Nat) :=
  [Action.compiled 3 (.value 7), Action.finish 3] ++ List.replicate 4 (Action.ask 0)

/-- The first attempt gets an answer of its own. -/
def waveringCompiler (g : Generation) : Compiler Unit Nat where
  parse _ _ := { outcome := .value () }
  compile _ _ := { outcome := .value (if g = 1 then 5 else 7) }

/-- The text is "a", then "b", then "a" again, and the compiler answers otherwise the second time.
The first answer comes to nothing, and the call returns what the third attempt has made of it. -/
theorem retrieval_provenance_repeated : ∃ before after : List (Action Nat),
    ∃ s t : Service Nat, ∃ sent more r,
      (ofConfig {} {} "a").steps? (before ++ [.retrieve "caller" "a" (.ofMillis 100)]) =
        some (s, sent) ∧
      s.steps? after = some (t, more) ∧ t.call? 0 = some r ∧
      r.result? = some (.ok (.compiled "a" 3 7), 0) ∧
      (ofConfig {} {} "a").chronicle 1
        (before ++ [.retrieve "caller" "a" (.ofMillis 100)] ++ after) =
          [.launched 1 "a", .answered (.value 5)] ∧
      ∃ run, (ofConfig {} {} "a").chronicle 3
        (before ++ [.retrieve "caller" "a" (.ofMillis 100)] ++ after) =
          [.launched run "a", .answered (.value 7), .stored (.compiled "a" 3 7) false false] := by
  -- both parts are run in one go; what is needed of the states is read off there
  have hrun : ((ofConfig {} {} "a" : Service Nat).steps?
      (waveringBefore ++ [Action.retrieve "caller" "a" (.ofMillis 100)])).bind
      (fun (s, _) => (s.steps? waveringAfter).bind fun (t, _) => (t.call? 0).map fun r =>
        (s.board.retrievals.size, r.result?)) =
      some (1, some (.ok (.compiled "a" 3 7), 0)) := by
    with_unfolding_all exact rfl
  obtain ⟨⟨s, sent⟩, hcall, hrest⟩ := Option.bind_eq_some_iff.1 hrun
  obtain ⟨⟨t, more⟩, hsteps, hrest⟩ := Option.bind_eq_some_iff.1 hrest
  obtain ⟨r, hr, hseen⟩ := Option.map_eq_some_iff.1 hrest
  obtain ⟨hsize, hresult⟩ := Prod.mk.inj hseen
  have hanswers : (ofConfig {} {} "a" : Service Nat).Along (AnswersAs waveringCompiler)
      (waveringBefore ++ [Action.retrieve "caller" "a" (.ofMillis 100)] ++ waveringAfter) := by
    refine along_of_forall fun a ha u g outcome b hcompiled _ => ?_
    subst hcompiled
    have hanswer : g = 1 ∧ outcome = .value 5 ∨ g = 3 ∧ outcome = .value 7 := by
      simpa [waveringBefore, waveringAfter] using ha
    rcases hanswer with ⟨rfl, rfl⟩ | ⟨rfl, rfl⟩
    · exact Compiler.gives_run (waveringCompiler 1) b.source false
    · exact Compiler.gives_run (waveringCompiler 3) b.source false
  have hlaw := (retrieval_provenance hcall hsize hsteps hanswers hr hresult).1 _ rfl
  obtain ⟨-, -, v, hv, -, hprovenance⟩ := hlaw
  cases hv
  obtain ⟨run, r', -, hchronicle⟩ := hprovenance.chronicle
  exact ⟨waveringBefore, waveringAfter, s, t, sent, more, r, hcall, hsteps, hr, hresult, rfl, run,
    hchronicle⟩

end Service

end CompileWatch
