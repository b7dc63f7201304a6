import CompileWatch.Proofs.Rounds
import Mathlib.Data.List.Destutter

/-!
# What a run makes attempts of

A run reads the source text at each of its polls and starts an attempt when the text is new to it.
Seen from outside, it removes stutter: the texts of its attempts are the texts that it has read,
without the empty ones, and then without repetitions in a row. The attempts bear the numbers that
the run takes for them, and numbers are handed out one after the other to all runs together.
-/
namespace CompileWatch

/-! ## Texts without stutter -/

/-- What is left of a sequence of texts when the empty ones are removed, and then of equal ones in
a row all but the first. -/
def withoutStutter (texts : List String) : List String :=
  (texts.filter (· ≠ "")).destutter (· ≠ ·)

/-- One element more comes out at the end, unless it equals the one that came out last. -/
theorem destutter'_concat {β : Type} [DecidableEq β] (l : List β) (b x : β) :
    (l ++ [x]).destutter' (· ≠ ·) b =
      if (l.destutter' (· ≠ ·) b).getLast? = some x then l.destutter' (· ≠ ·) b
      else l.destutter' (· ≠ ·) b ++ [x] := by
  induction l generalizing b with
  | nil => by_cases h : b = x <;> simp [h]
  | cons c rest ih =>
    by_cases h : b ≠ c
    · have hlast : (b :: rest.destutter' (· ≠ ·) c).getLast? =
          (rest.destutter' (· ≠ ·) c).getLast? := by
        obtain ⟨d, more, hd⟩ := List.exists_cons_of_ne_nil
          (rest.destutter'_ne_nil (a := c) (· ≠ ·))
        rw [hd, List.getLast?_cons_cons]
      rw [List.cons_append, List.destutter'_cons_pos _ h, List.destutter'_cons_pos _ h, ih, hlast]
      split <;> rfl
    · rw [List.cons_append, List.destutter'_cons_neg _ h, List.destutter'_cons_neg _ h, ih]

theorem withoutStutter_concat (texts : List String) (x : String) :
    withoutStutter (texts ++ [x]) =
      if x = "" ∨ (withoutStutter texts).getLast? = some x then withoutStutter texts
      else withoutStutter texts ++ [x] := by
  unfold withoutStutter
  rw [List.filter_append]
  by_cases hx : x = ""
  · simp [hx]
  · rw [List.filter_cons_of_pos (by simpa using hx), List.filter_nil]
    cases texts.filter (· ≠ "") with
    | nil => simpa using hx
    | cons b rest =>
      rw [List.cons_append, List.destutter_cons', List.destutter_cons', destutter'_concat]
      simp [hx]

/-- Empty texts and repetitions of the text that came out last make no difference, however many of
them there are and whatever comes after them. -/
theorem withoutStutter_insert {before extra : List String} (after : List String)
    (h : ∀ x ∈ extra, x = "" ∨ (withoutStutter before).getLast? = some x) :
    withoutStutter (before ++ extra ++ after) = withoutStutter (before ++ after) := by
  have hextra : withoutStutter (before ++ extra) = withoutStutter before := by
    induction extra using List.reverseRecOn with
    | nil => rw [List.append_nil]
    | append_singleton first x ih =>
      have hfirst := ih fun y hy => h y (List.mem_append_left _ hy)
      rw [← List.append_assoc, withoutStutter_concat, hfirst,
        if_pos (h x (List.mem_append_right _ List.mem_cons_self))]
  induction after using List.reverseRecOn with
  | nil => rw [List.append_nil, List.append_nil, hextra]
  | append_singleton first x ih =>
    rw [← List.append_assoc, ← List.append_assoc, withoutStutter_concat, withoutStutter_concat, ih]

/-! ## Rounds, for one run -/

/-- The text that a run has read and not made an attempt of yet. -/
def Run.pending? (r : Run) : Option String :=
  match r.stage with
  | .noticed text | .looking text | .cancelling text _ | .callingOff text _
  | .superseding text _ | .numbering text | .raising text _ | .announcing text _
  | .launching text _ => some text
  | _ => none

/-- The number that a run has taken and not given to an attempt yet. -/
def Run.number? (r : Run) : Option Generation := r.pledge?.map (·.generation)

/-- At most so many steps of its own are left to a run until it has made an attempt of the text that
it has read. -/
def Run.stepsToLaunch (r : Run) : Nat :=
  match r.stage with
  | .noticed _ => 9
  | .looking _ => 8
  | .cancelling .. => 7
  | .callingOff .. => 6
  | .superseding .. => 5
  | .numbering _ => 4
  | .raising .. => 3
  | .announcing .. => 2
  | .launching .. => 1
  | _ => 0

theorem Run.stepsToLaunch_le (r : Run) : r.stepsToLaunch ≤ 9 := by
  unfold Run.stepsToLaunch
  split <;> decide

theorem Run.isNews_eq_true_iff {r : Run} {text : String} :
    r.isNews text = true ↔ ¬ (text = "" ∨ r.lastText = some text) := by
  simp [Run.isNews]

namespace Service

variable {α : Type} {s t s₀ : Service α} {action : Action α} {actions : List (Action α)}
  {sent told : List Stamped} {id : Nat} {r r' : Run}

/-- The text that the run `id` reads in an action. -/
def read? (id : Nat) (s : Service α) : Action α → Option String
  | .poll k => if k = id then some s.text else none
  | _ => none

/-- The number that is handed out in an action, with the run that takes it. -/
def numberTaken? (s : Service α) : Action α → Option (Nat × Generation)
  | .proceed id => (s.handedOut? (.proceed id)).map (id, ·)
  | _ => none

/-- The texts and the numbers of the attempts that the run `id` has made, in order. -/
def begun (s : Service α) (id : Nat) : List (String × Generation) :=
  (s.attempts.filter (·.run = id)).map fun a => (a.source, a.generation)

/-- The attempt that the run `id` launches in an action. -/
def launch? (id : Nat) (s : Service α) : Action α → Option (String × Generation)
  | .proceed k =>
    if k = id then (s.run? k).bind fun r =>
      match r.stage with
      | .launching text g => some (text, g)
      | _ => none
    else none
  | _ => none

theorem launch?_eq_some_iff {text : String} {g : Generation} :
    s.launch? id action = some (text, g) ↔
      action = .proceed id ∧ ∃ r, s.run? id = some r ∧ r.stage = .launching text g := by
  constructor
  · intro h
    cases action with
    | proceed k =>
      simp only [launch?, Option.ite_none_right_eq_some] at h
      obtain ⟨rfl, h⟩ := h
      obtain ⟨r, hr, hs⟩ := Option.bind_eq_some_iff.1 h
      split at hs
      · next hstage => cases hs; exact ⟨rfl, r, hr, hstage⟩
      · cases hs
    | _ => cases h
  · rintro ⟨rfl, r, hr, hs⟩
    simp [launch?, hr, hs]

/-- A step of a run in a stage in which it launches nothing. -/
theorem launch?_of_stage (hr : s.run? r.id = some r) (hs : ∀ text g, r.stage ≠ .launching text g) :
    s.launch? r.id action = none := by
  refine Option.eq_none_iff_forall_ne_some.2 fun ⟨text, g⟩ hl => ?_
  obtain ⟨-, r₀, hr₀, hstage⟩ := launch?_eq_some_iff.1 hl
  cases hr.symm.trans hr₀
  exact hs text g hstage

/-- A step of a run in a stage in which it takes no number. -/
theorem numberTaken?_of_stage (hr : s.run? r.id = some r) (hs : ∀ text, r.stage ≠ .numbering text) :
    s.numberTaken? (.proceed r.id) = none := by
  refine Option.map_eq_none_iff.2 (Option.eq_none_iff_forall_ne_some.2 fun g hg => ?_)
  obtain ⟨k, r₀, text, heq, hr₀, hstage, -⟩ := handedOut?_eq_some_iff.1 hg
  cases heq
  cases hr.symm.trans hr₀
  exact hs text hstage

/-- What a step of a run means to its reading, one constructor for each case. -/
inductive ReadStep (s : Service α) (r : Run) (action : Action α) (r' : Run) : Prop
  | read : read? r.id s action = some s.text → s.numberTaken? action = none →
      s.launch? r.id action = none → r.pending? = none →
      r'.pending? = (if r.isNews s.text then some s.text else none) →
      r'.lastText = r.lastText → r.number? = none → r'.number? = none → ReadStep s r action r'
  | number : read? r.id s action = none →
      s.numberTaken? action = some (r.id, s.generation + 1) → s.launch? r.id action = none →
      r'.pending? = r.pending? → r'.lastText = r.lastText → r.number? = none →
      r'.number? = some (s.generation + 1) → ReadStep s r action r'
  | launch {text : String} {g : Generation} : read? r.id s action = none →
      s.numberTaken? action = none → s.launch? r.id action = some (text, g) →
      r.pending? = some text → r'.pending? = none → r'.lastText = some text →
      r.number? = some g → r'.number? = none → ReadStep s r action r'
  | other : read? r.id s action = none → s.numberTaken? action = none →
      s.launch? r.id action = none → r'.pending? = r.pending? → r'.lastText = r.lastText →
      r'.number? = r.number? → ReadStep s r action r'

theorem RunStep.readStep (h : RunStep s r action r' t sent) (hr : s.run? r.id = some r) :
    ReadStep s r action r' := by
  have hquiet (hs : ∀ text g, r.stage ≠ .launching text g) : s.launch? r.id action = none :=
    launch?_of_stage hr hs
  have htakes := numberTaken?_of_stage hr
  cases h
  case notice wake hs hwake hnews | rest wake hs hwake hnews =>
    refine .read ?_ rfl rfl ?_ ?_ rfl ?_ rfl
    · simp [read?]
    · simp [Run.pending?, hs]
    · simp [Run.pending?, hnews]
    · simp [Run.number?, Run.pledge?, hs]
  case number text hs =>
    have hg := handedOut?_eq_some_iff.2 ⟨r.id, r, text, rfl, hr, hs, rfl⟩
    refine .number rfl ?_ (hquiet (by simp [hs])) ?_ rfl ?_ rfl
    · simp [numberTaken?, hg]
    · simp [Run.pending?, hs]
    · simp [Run.number?, Run.pledge?, hs]
  case launch text g hs =>
    refine .launch rfl (htakes (by simp [hs])) (launch?_eq_some_iff.2 ⟨rfl, r, hr, hs⟩) ?_ rfl rfl
      ?_ rfl
    · simp [Run.pending?, hs]
    · simp [Run.number?, Run.pledge?, hs]
  case die | leave | drained | graceEnds | glance =>
    exact .other rfl rfl rfl (by simp [Run.pending?, *]) rfl (by simp [Run.number?, Run.pledge?, *])
  all_goals
    exact .other rfl (htakes (by simp [*])) (hquiet (by simp [*])) (by simp [Run.pending?, *]) rfl
      (by simp [Run.number?, Run.pledge?, *])

/-! ## The attempts of a run -/

theorem begun_eq_filterMap (s : Service α) (id : Nat) :
    s.begun id = s.attempts.filterMap fun a =>
      if a.run = id then some (a.source, a.generation) else none := by
  unfold begun
  induction s.attempts with
  | nil => rfl
  | cons a rest ih => by_cases h : a.run = id <;> simp [h, ih]

/-- The attempts of a run can be read off the numbers of all attempts. -/
theorem begun_eq_of_nodup (h : s.generations.Nodup) (id : Nat) :
    s.begun id = s.generations.filterMap fun g => (s.attempt? g).bind fun a =>
      if a.run = id then some (a.source, g) else none := by
  rw [begun_eq_filterMap, generations, List.filterMap_map]
  refine List.filterMap_congr fun a ha => ?_
  simp [attempt?_of_mem h ha]

/-- The attempts that are there keep their run, their text and their number, so that those of a run
become more only where numbers are added. -/
theorem begun_of_generations (hs : s.generations.Nodup) (ht : t.generations.Nodup)
    (hkept : ∀ {g a}, s.attempt? g = some a → ∃ a', t.attempt? g = some a' ∧ Change s a a')
    {added : List Generation} (hadded : t.generations = s.generations ++ added) (id : Nat) :
    t.begun id = s.begun id ++ added.filterMap fun g => (t.attempt? g).bind fun a =>
      if a.run = id then some (a.source, g) else none := by
  rw [begun_eq_of_nodup ht, begun_eq_of_nodup hs, hadded, List.filterMap_append]
  congr 1
  refine List.filterMap_congr fun g hg => ?_
  obtain ⟨a, ha, rfl⟩ := List.mem_map.1 hg
  have ha' := attempt?_of_mem hs ha
  obtain ⟨b, hb, hchange⟩ := hkept ha'
  obtain ⟨-, hrun, hsource⟩ := hchange.identity
  rw [ha', hb]
  simp [hrun, hsource]

theorem RunStep.generations_of_launching (h : RunStep s r action r' t sent) {text : String}
    {g : Generation} (hs : r.stage = .launching text g) : t.generations = s.generations ++ [g] := by
  cases h
  case launch text' g' hs' =>
    rw [hs] at hs'
    cases hs'
    exact ((s.launched r.id text g).generations_looked _ _).trans (s.generations_launched _ _ _)
  all_goals simp_all

theorem launch?_eq_none_of_runner (h : runner? action ≠ some id) : s.launch? id action = none := by
  refine Option.eq_none_iff_forall_ne_some.2 fun ⟨text, g⟩ hl => h ?_
  obtain ⟨rfl, -⟩ := launch?_eq_some_iff.1 hl
  rfl

/-- The attempts that a run has made stay, and it makes one more where it launches it. -/
theorem begun_step (hs : s.Reachable) (hone : s.step? action = some (t, sent)) (id : Nat) :
    t.begun id = s.begun id ++ (s.launch? id action).toList := by
  have hstep := Step.of_step? hone
  have hgrows {added : List Generation} (hadded : t.generations = s.generations ++ added) :=
    begun_of_generations hs.nodup_generations (hs.step hone).nodup_generations
      (fun ha => hstep.exists_attempt? ha) hadded id
  have hsame (hadded : t.generations = s.generations) (hno : s.launch? id action = none) :
      t.begun id = s.begun id ++ (s.launch? id action).toList := by
    rw [hno]
    exact hgrows (hadded.trans (List.append_nil _).symm)
  cases hstep with
  | @run r r' _ _ _ hr h =>
    by_cases hlaunch : ∃ text g, r.stage = .launching text g
    · obtain ⟨text, g, hstage⟩ := hlaunch
      have hpledge : s.pledge? r.id = some ⟨text, g, true⟩ := by
        simp [pledge?, hr, Run.pledge?, hstage]
      have hunused : s.attempt? g = none := hs.numbered.pledge_unused hpledge
      have hnew : t.attempt? g = some { generation := g, run := r.id, source := text } := by
        rcases h.attempt? g with hrel | ⟨text', hstage', -, hsome⟩
        · rw [hunused] at hrel
          exact absurd (eq_none_of_rel hrel) (h.attempt?_ne_none hstage)
        · cases hstage.symm.trans hstage'
          exact hsome
      rw [hgrows (h.generations_of_launching hstage)]
      congr 1
      by_cases hid : r.id = id
      · have haction : action = .proceed id := by
          cases h
          case launch => rw [hid]
          all_goals simp_all
        rw [launch?_eq_some_iff.2 ⟨haction, r, hid ▸ hr, hstage⟩]
        simp [hnew, hid]
      · rw [launch?_eq_none_of_runner (by rw [h.runner]; simpa using hid)]
        simp [hnew, hid]
    · have hnone : s.launch? r.id action = none :=
        launch?_of_stage hr fun text g hstage => hlaunch ⟨text, g, hstage⟩
      refine hsame ?_ ?_
      · rcases h.generations with hsame | ⟨text, g, hstage, -⟩
        · exact hsame
        · exact absurd ⟨text, g, hstage⟩ hlaunch
      · by_cases hid : r.id = id
        · exact hid ▸ hnone
        · exact launch?_eq_none_of_runner (by rw [h.runner]; simpa using hid)
  | attempt _ h =>
    refine hsame h.generations ?_
    cases h <;> rfl
  | _ => exact hsame rfl rfl

/-! ## Numbers are handed out one after the other -/

theorem Step.numberTaken? (h : Step s action t sent) :
    (s.numberTaken? action = none ∧ t.generation = s.generation) ∨
      ∃ k, s.numberTaken? action = some (k, s.generation + 1) ∧
        t.generation = s.generation + 1 := by
  cases h with
  | @run r r' _ _ _ hr h =>
    have htakes := numberTaken?_of_stage hr
    cases h
    case number text hs =>
      have hg := handedOut?_eq_some_iff.2 ⟨r.id, r, text, rfl, hr, hs, rfl⟩
      exact .inr ⟨r.id, by simp [Service.numberTaken?, hg], rfl⟩
    case notice | rest | die | leave | drained | graceEnds | glance => exact .inl ⟨rfl, rfl⟩
    all_goals exact .inl ⟨htakes (by simp [*]), rfl⟩
  | attempt _ h =>
    cases h with
    | move _ => rw [afterMove_eq]; exact .inl ⟨rfl, rfl⟩
    | _ => exact .inl ⟨rfl, rfl⟩
  | _ => exact .inl ⟨rfl, rfl⟩

/-- The numbers that are taken in a part of a history are the next ones, one after the other. -/
theorem numbersTaken_of_steps? (hsteps : s.steps? actions = some (t, sent)) :
    (s.observe Service.numberTaken? actions).map Prod.snd =
      List.range' (s.generation + 1) (t.generation - s.generation) ∧
      s.generation ≤ t.generation := by
  refine observe_induct (motive := fun u taken => taken.map Prod.snd =
      List.range' (s.generation + 1) (u.generation - s.generation) ∧ s.generation ≤ u.generation)
    (fun {u v a told taken} _ _ hone hu => ?_) hsteps ⟨by simp, Nat.le_refl _⟩
  obtain ⟨htaken, hle⟩ := hu
  rcases (Step.of_step? hone).numberTaken? with ⟨hnone, hsame⟩ | ⟨k, htakes, hnext⟩
  · rw [hnone, hsame, Option.toList_none, List.append_nil]
    exact ⟨htaken, hle⟩
  · have hlen : v.generation - s.generation = (u.generation - s.generation) + 1 := by
      rw [hnext]
      exact Nat.sub_add_comm hle
    have hend : s.generation + 1 + (u.generation - s.generation) = u.generation + 1 := by
      rw [Nat.add_right_comm, Nat.add_sub_cancel' hle]
    refine ⟨?_, hnext ▸ Nat.le_succ_of_le hle⟩
    rw [htakes, hlen, List.range'_concat, List.map_append, htaken, Nat.one_mul, hend]
    rfl

/-! ## What a run has read and what it has made of it -/

/-- What a run has made of the texts that it has read and of the numbers that it has taken. -/
structure Follows (texts : List String) (taken : List (Nat × Generation))
    (begun : List (String × Generation)) (r : Run) : Prop where
  /-- Its attempts, and the one that it is about to make, are those of the texts without stutter. -/
  texts_eq : begun.map Prod.fst ++ r.pending?.toList = withoutStutter texts
  /-- It remembers the text of the last attempt. -/
  last : r.lastText = (begun.map Prod.fst).getLast?
  /-- The attempt that it is about to make is of the text that it has read last. -/
  read {text : String} : r.pending? = some text → texts.getLast? = some text
  /-- Its attempts, and the one that it is about to make, bear the numbers that it has taken. -/
  numbers_eq : begun.map Prod.snd ++ r.number?.toList =
    (taken.filter (·.1 = r.id)).map Prod.snd

variable {texts : List String} {taken : List (Nat × Generation)}
  {begun : List (String × Generation)}

theorem Follows.step (h : Follows texts taken begun r) (hid : r'.id = r.id)
    (hstep : ReadStep s r action r') :
    Follows (texts ++ (read? r.id s action).toList) (taken ++ (s.numberTaken? action).toList)
      (begun ++ (s.launch? r.id action).toList) r' := by
  cases hstep with
  | read hread htaken hlaunch hpending hpending' hlast hnumber hnumber' =>
    rw [hread, htaken, hlaunch]
    simp only [Option.toList_none, Option.toList_some, List.append_nil]
    have htexts : begun.map Prod.fst = withoutStutter texts := by
      simpa [hpending] using h.texts_eq
    have hnews : r.isNews s.text = true ↔
        ¬ (s.text = "" ∨ (withoutStutter texts).getLast? = some s.text) := by
      rw [Run.isNews_eq_true_iff, h.last, htexts]
    refine ⟨?_, hlast.trans h.last, fun {text} htext => ?_, ?_⟩
    · rw [withoutStutter_concat, hpending', htexts]
      by_cases hold : s.text = "" ∨ (withoutStutter texts).getLast? = some s.text
      · rw [if_pos hold, if_neg (fun hyes => hnews.1 hyes hold), Option.toList_none,
          List.append_nil]
      · rw [if_neg hold, if_pos (hnews.2 hold), Option.toList_some]
    · rw [hpending'] at htext
      split at htext
      · cases htext
        exact List.getLast?_concat
      · cases htext
    · rw [hnumber', hid, ← hnumber]
      exact h.numbers_eq
  | number hread htaken hlaunch hpending hlast hnumber hnumber' =>
    rw [hread, htaken, hlaunch]
    simp only [Option.toList_none, Option.toList_some, List.append_nil]
    refine ⟨hpending ▸ h.texts_eq, hlast.trans h.last, fun htext => h.read (hpending ▸ htext), ?_⟩
    have hnumbers := h.numbers_eq
    rw [hnumber, Option.toList_none, List.append_nil] at hnumbers
    rw [hnumber', hid, List.filter_append, List.map_append, ← hnumbers]
    simp
  | launch hread htaken hlaunch hpending hpending' hlast hnumber hnumber' =>
    rw [hread, htaken, hlaunch]
    simp only [Option.toList_none, Option.toList_some, List.append_nil]
    refine ⟨?_, ?_, fun htext => ?_, ?_⟩
    · rw [hpending', ← h.texts_eq, hpending]
      simp
    · rw [hlast]
      simp
    · rw [hpending'] at htext
      cases htext
    · rw [hnumber', hid, ← h.numbers_eq, hnumber]
      simp
  | other hread htaken hlaunch hpending hlast hnumber =>
    rw [hread, htaken, hlaunch]
    simp only [Option.toList_none, List.append_nil]
    exact ⟨hpending ▸ h.texts_eq, hlast.trans h.last, fun htext => h.read (hpending ▸ htext),
      by rw [hnumber, hid]; exact h.numbers_eq⟩

theorem RunStep.id_eq (h : RunStep s r action r' t sent) : r'.id = r.id := by
  cases h <;> rfl

/-- What others do is no reading of the run, and takes no number for it. -/
theorem notes_of_other (h : runner? action ≠ some id) :
    read? id s action = none ∧ s.launch? id action = none ∧
      (s.numberTaken? action).toList.filter (·.1 = id) = [] := by
  refine ⟨?_, launch?_eq_none_of_runner h, ?_⟩
  · cases action with
    | poll k => exact if_neg fun (hk : k = id) => h (by rw [hk]; rfl)
    | _ => rfl
  · cases action with
    | proceed k =>
      have hk : k ≠ id := fun hk => h (hk ▸ rfl)
      refine List.filter_eq_nil_iff.2 fun p hp => ?_
      obtain ⟨g, -, rfl⟩ := Option.map_eq_some_iff.1 (Option.mem_toList.1 hp)
      simpa using hk
    | _ => rfl

/-- What is there of a run, at all times. -/
theorem follows_of_steps? (hs₀ : s₀.Reachable) (hruns : s₀.runs = []) (hattempts : s₀.attempts = [])
    (hsteps : s₀.steps? actions = some (s, sent)) (id : Nat) :
    (s.run? id = none → s₀.observe (read? id) actions = [] ∧ s.begun id = [] ∧
      (s₀.observe Service.numberTaken? actions).filter (·.1 = id) = []) ∧
      ∀ r, s.run? id = some r → Follows (s₀.observe (read? id) actions)
        (s₀.observe Service.numberTaken? actions) (s.begun id) r := by
  refine steps?_induct (motive := fun actions s _ =>
      (s.run? id = none → s₀.observe (read? id) actions = [] ∧ s.begun id = [] ∧
        (s₀.observe Service.numberTaken? actions).filter (·.1 = id) = []) ∧
      ∀ r, s.run? id = some r → Follows (s₀.observe (read? id) actions)
        (s₀.observe Service.numberTaken? actions) (s.begun id) r)
    (fun {first u v a told more} hfirst hone ih => ?_) ⟨fun _ => ?_, fun r hr => ?_⟩ hsteps
  · have hstep := Step.of_step? hone
    have hu : u.Reachable := hs₀.reaches ⟨first, told, hfirst⟩
    rw [observe_snoc hfirst hone, observe_snoc hfirst hone, begun_step hu hone]
    by_cases hown : runner? a = some id
    · cases hstep
      case run r r' hr h =>
        obtain rfl : r.id = id := Option.some.inj (h.runner.symm.trans hown)
        have hr' : v.run? r.id = some r' := by simp [h.run? hr]
        refine ⟨fun hnone => ?_, fun r₁ hr₁ => ?_⟩
        · cases hnone.symm.trans hr'
        · cases hr₁.symm.trans hr'
          exact (ih.2 r hr).step h.id_eq (h.readStep hr)
      case attempt _ h => cases h <;> cases hown
      all_goals cases hown
    · obtain ⟨hread, hlaunch, htaken⟩ := notes_of_other (s := u) hown
      rw [hread, hlaunch, Option.toList_none, List.append_nil, Option.toList_none, List.append_nil]
      -- a run that is not told anything but to stop stays where it is
      have still {r r' : Run} (hr : u.run? id = some r) (hpending : r'.pending? = r.pending?)
          (hlast : r'.lastText = r.lastText) (hnumber : r'.number? = r.number?)
          (hid : r'.id = r.id) : Follows (s₀.observe (read? id) first)
            (s₀.observe Service.numberTaken? first ++ (u.numberTaken? a).toList)
            (u.begun id) r' := by
        obtain ⟨htexts, hmemory, hlastread, hnumbers⟩ := ih.2 r hr
        rw [id_of_run? hr] at hnumbers
        refine ⟨hpending ▸ htexts, hlast.trans hmemory, fun h => hlastread (hpending ▸ h), ?_⟩
        rw [hid, id_of_run? hr, hnumber, List.filter_append, htaken, List.append_nil]
        exact hnumbers
      have absent (hnone : u.run? id = none) : s₀.observe (read? id) first = [] ∧
          u.begun id = [] ∧ (s₀.observe Service.numberTaken? first ++
            (u.numberTaken? a).toList).filter (·.1 = id) = [] := by
        obtain ⟨hreads, hbegun, hnumbers⟩ := ih.1 hnone
        refine ⟨hreads, hbegun, ?_⟩
        rw [List.filter_append, hnumbers, htaken, List.append_nil]
      rcases hstep.run? id with hsame | ⟨r, hr, htold⟩ | ⟨r, r', rfl, -, -, h⟩ | ⟨-, hnone, hnew⟩
      · rw [hsame]
        exact ⟨absent, fun r hr => still hr rfl rfl rfl rfl⟩
      · rw [htold]
        refine ⟨nofun, fun r' hr' => ?_⟩
        cases hr'
        exact still hr rfl rfl rfl rfl
      · exact absurd h.runner hown
      · rw [hnew]
        refine ⟨nofun, fun r' hr' => ?_⟩
        cases hr'
        obtain ⟨hreads, hbegun, hnumbers⟩ := absent hnone
        rw [hreads, hbegun]
        refine ⟨rfl, rfl, nofun, ?_⟩
        rw [hnumbers]
        rfl
  · exact ⟨rfl, by simp [Service.begun, hattempts], rfl⟩
  · simp [run?, hruns] at hr

/-- The text that the run `id` has read and not made an attempt of yet. -/
def pending? (s : Service α) (id : Nat) : Option String := (s.run? id).bind Run.pending?

/-- The number that the run `id` has taken and not given to an attempt yet. -/
def number? (s : Service α) (id : Nat) : Option Generation := (s.run? id).bind Run.number?

section FromTheStart

variable (hs₀ : s₀.Reachable) (hruns : s₀.runs = []) (hattempts : s₀.attempts = [])
  (hsteps : s₀.steps? actions = some (s, sent))

include hs₀ hruns hattempts hsteps

/-- What a run makes of the texts that it reads is what is left of them without stutter. -/
theorem texts_of_steps? (id : Nat) : (s.begun id).map Prod.fst ++ (s.pending? id).toList =
    withoutStutter (s₀.observe (read? id) actions) := by
  obtain ⟨absent, present⟩ := follows_of_steps? hs₀ hruns hattempts hsteps id
  cases hr : s.run? id with
  | none =>
    obtain ⟨hreads, hbegun, -⟩ := absent hr
    simp [hreads, hbegun, pending?, hr, withoutStutter]
  | some r =>
    rw [pending?, hr]
    exact (present r hr).texts_eq

/-- A run gives the numbers that it takes to its attempts. -/
theorem numbers_of_steps? (id : Nat) : (s.begun id).map Prod.snd ++ (s.number? id).toList =
    ((s₀.observe Service.numberTaken? actions).filter (·.1 = id)).map Prod.snd := by
  obtain ⟨absent, present⟩ := follows_of_steps? hs₀ hruns hattempts hsteps id
  cases hr : s.run? id with
  | none =>
    obtain ⟨-, hbegun, htaken⟩ := absent hr
    simp [hbegun, htaken, number?, hr]
  | some r =>
    rw [number?, hr, ← id_of_run? hr]
    rw [← id_of_run? hr] at present hr
    exact (present r hr).numbers_eq

end FromTheStart

/-! ## A round comes to its end -/

/-- What is done by a run is a step of that run. -/
theorem runStep_of_step? (hone : s.step? action = some (t, sent)) (hr : s.run? r.id = some r)
    (hrunner : runner? action = some r.id) :
    ∃ r', RunStep s r action r' t sent ∧ t.run? r.id = some r' := by
  cases Step.of_step? hone with
  | @run r₀ r' _ _ _ hr₀ h =>
    have hid : r₀.id = r.id := Option.some.inj (h.runner.symm.trans hrunner)
    obtain rfl : r = r₀ := Option.some.inj (hr.symm.trans (hid ▸ hr₀))
    exact ⟨r', h, by simp [h.run? hr]⟩
  | attempt _ h => cases h <;> cases hrunner
  | _ => cases hrunner

/-- A run that has a next step can take it. -/
theorem exists_proceed_of_isSome (hr : s.run? id = some r) (h : (s.proceed? r).isSome) :
    ∃ t told, s.step? (.proceed id) = some (t, told) := by
  obtain ⟨⟨t, told⟩, hnext⟩ := Option.isSome_iff_exists.1 h
  exact ⟨t, told, by simp [step?, hr, hnext]⟩

/-- A run that has read a new text can go on. -/
theorem exists_proceed (hr : s.run? r.id = some r) {text : String} (hp : r.pending? = some text) :
    ∃ t told, s.step? (.proceed r.id) = some (t, told) := by
  refine exists_proceed_of_isSome hr ?_
  unfold Run.pending? at hp
  unfold proceed?
  split at hp
  case h_2 _ hs =>
    rw [hs]
    dsimp only
    split
    · rfl
    · split <;> rfl
  case h_10 => cases hp
  all_goals simp [*]

theorem RunStep.stepsToLaunch (h : RunStep s r (.proceed r.id) r' t sent) {text : String}
    (hp : r.pending? = some text) : r'.stepsToLaunch < r.stepsToLaunch := by
  cases h
  case cancelLast hs _ | cancelNone hs _ | callOffLast hs _ | callOffNone hs _
      | announceGrace hs | announceEnd hs => simp [Run.pending?, hs] at hp
  all_goals simp [Run.stepsToLaunch, *]

/-- By steps of its own a run comes to the end of its round, whatever text it has read. -/
theorem exists_launched_of_run? (hr : s.run? id = some r) :
    ∃ n ≤ r.stepsToLaunch, ∃ t told, s.steps? (List.replicate n (.proceed id)) = some (t, told) ∧
      t.pending? id = none := by
  generalize hlength : r.stepsToLaunch = length
  induction length using Nat.strongRecOn generalizing s r with
  | ind length ih =>
    cases hp : r.pending? with
    | none => exact ⟨0, Nat.zero_le _, s, [], rfl, by simp [pending?, hr, hp]⟩
    | some text =>
      obtain rfl := id_of_run? hr
      obtain ⟨u, first, hone⟩ := exists_proceed hr hp
      obtain ⟨r', hown, hr'⟩ := runStep_of_step? hone hr rfl
      have hless := hown.stepsToLaunch hp
      obtain ⟨n, hn, t, more, hrest, hdone⟩ := ih _ (hlength ▸ hless) hr' rfl
      refine ⟨n + 1, by omega, t, first ++ more, ?_, hdone⟩
      rw [List.replicate_succ, steps?_cons, hone]
      simp [hrest]

theorem exists_launched (s : Service α) (id : Nat) :
    ∃ n ≤ 9, ∃ t told, s.steps? (List.replicate n (.proceed id)) = some (t, told) ∧
      t.pending? id = none := by
  cases hr : s.run? id with
  | none => exact ⟨0, Nat.zero_le _, s, [], rfl, by simp [pending?, hr]⟩
  | some r =>
    obtain ⟨n, hn, ht⟩ := exists_launched_of_run? hr
    exact ⟨n, Nat.le_trans hn r.stepsToLaunch_le, ht⟩

/-! ## Polls that make no difference -/

/-- From `s` to `t`, the run `id` has gone back to sleep, and nothing else has changed than what it
has taken note of: nothing was started, cancelled or superseded. -/
structure Undisturbed (s t : Service α) (sent : List Stamped) (id : Nat) : Prop where
  sent_eq : sent = []
  generation_eq : t.generation = s.generation
  slot_eq : t.slot = s.slot
  begun_eq (k : Nat) : t.begun k = s.begun k
  attempts (g : Generation) : t.attempt? g = s.attempt? g ∨ ∃ a, s.attempt? g = some a ∧
    a.isFinished = true ∧ t.attempt? g = some { a with noted := true }
  run (k : Nat) : t.run? k =
    if k = id then (s.run? id).map ({ · with stage := .waiting s.nextPoll }) else s.run? k

/-- A run goes back to sleep when it reads no text or the text of its last attempt. -/
theorem undisturbed_of_poll (hs : s.Reachable) (hr : s.run? r.id = some r)
    (hold : s.text = "" ∨ r.lastText = some s.text)
    (hone : s.step? (.poll r.id) = some (t, sent)) : Undisturbed s t sent r.id := by
  have hbegun := begun_step hs hone
  obtain ⟨r', h, -⟩ := runStep_of_step? hone hr rfl
  have hrun := h.run? hr
  cases h with
  | notice _ _ hnews => exact absurd hold (Run.isNews_eq_true_iff.1 hnews)
  | rest _ _ _ =>
    exact {
      sent_eq := rfl
      generation_eq := rfl
      slot_eq := rfl
      begun_eq := fun k => (hbegun k).trans (List.append_nil _)
      attempts := fun g => s.attempt?_looked _ _ g
      run := fun k => by rw [hrun k, hr]; rfl }

/-! ## What is started -/

/-- How the attempts of the run `id` follow from the texts that it has read and the numbers that it
has taken in a history from `s₀` to `s`. -/
structure Collapses (s₀ : Service α) (actions : List (Action α)) (s : Service α) (id : Nat) :
    Prop where
  /-- The texts of its attempts, and of the one that it is about to make, are those that it has
  read, without the empty ones and then without repetitions in a row. -/
  texts : (s.begun id).map Prod.fst ++ (s.pending? id).toList =
    withoutStutter (s₀.observe (read? id) actions)
  /-- It makes the attempt that it is about to make by steps of its own alone. -/
  completes : ∃ n ≤ 9, ∃ t told, s.steps? (List.replicate n (.proceed id)) = some (t, told) ∧
    (t.begun id).map Prod.fst = withoutStutter (s₀.observe (read? id) actions)
  /-- Each attempt is made of the text that was read in its own poll, the last one before it. -/
  snapshot {first rest : List (Action α)} {a : Action α} {u v : Service α}
      {told more : List Stamped} {text : String} {g : Generation} :
    actions = first ++ a :: rest → s₀.steps? first = some (u, told) →
    u.step? a = some (v, more) → v.begun id = u.begun id ++ [(text, g)] →
    (s₀.observe (read? id) first).getLast? = some text
  /-- Where no other run takes a number for an attempt, its attempts bear consecutive numbers. -/
  consecutive {first rest : List (Action α)} {u : Service α} {told : List Stamped} :
    actions = first ++ rest → s₀.steps? first = some (u, told) →
    (∀ p ∈ u.observe Service.numberTaken? rest, p.1 = id) →
    (s.begun id).map Prod.snd ++ (s.number? id).toList =
      (u.begun id).map Prod.snd ++ (u.number? id).toList ++
        List.range' (u.generation + 1) (s.generation - u.generation)
  /-- Polls that read nothing, or the text of the attempt before, make no difference to its
  attempts, -/
  extra {before more after : List String} :
    s₀.observe (read? id) actions = before ++ more ++ after →
    (∀ x ∈ more, x = "" ∨ (withoutStutter before).getLast? = some x) →
    (s.begun id).map Prod.fst ++ (s.pending? id).toList = withoutStutter (before ++ after)
  /-- nor to anything else. -/
  idle {t : Service α} {told : List Stamped} :
    s.text = "" ∨ ((s.begun id).map Prod.fst).getLast? = some s.text →
    s.step? (.poll id) = some (t, told) → Undisturbed s t told id
  /-- It remembers the text of its own last attempt, and so none when it is new. -/
  memory {r : Run} : s.run? id = some r → r.lastText = ((s.begun id).map Prod.fst).getLast?
  fresh : s.run? id = none → s₀.observe (read? id) actions = [] ∧ s.begun id = []

section FromTheStart

variable (hs₀ : s₀.Reachable) (hruns : s₀.runs = []) (hattempts : s₀.attempts = [])
  (hsteps : s₀.steps? actions = some (s, sent))

include hs₀ hruns hattempts hsteps

theorem completes_of_steps? (id : Nat) :
    ∃ n ≤ 9, ∃ t told, s.steps? (List.replicate n (.proceed id)) = some (t, told) ∧
      (t.begun id).map Prod.fst = withoutStutter (s₀.observe (read? id) actions) := by
  obtain ⟨n, hn, t, told, hmore, hdone⟩ := s.exists_launched id
  -- the run reads nothing on its way
  have hnone : s.observe (read? id) (List.replicate n (.proceed id)) = [] := by
    refine List.eq_nil_iff_forall_not_mem.2 fun x hx => ?_
    obtain ⟨first, a, second, u, more, hsplit, -, hlook⟩ := exists_of_mem_observe hx
    obtain rfl : a = .proceed id := List.eq_of_mem_replicate (n := n) (by simp [hsplit])
    cases hlook
  have htexts := texts_of_steps? hs₀ hruns hattempts (steps?_append_eq_some hsteps hmore) id
  rw [observe_append hsteps, hnone, List.append_nil, hdone] at htexts
  exact ⟨n, hn, t, told, hmore, by simpa using htexts⟩

theorem snapshot_of_steps? {a : Action α} {more : List Stamped} {g : Generation} {text : String}
    (hone : s.step? a = some (t, more)) (hbegun : t.begun id = s.begun id ++ [(text, g)]) :
    (s₀.observe (read? id) actions).getLast? = some text := by
  have hlaunch : s.launch? id a = some (text, g) := by
    have hstep := begun_step (hs₀.reaches ⟨actions, sent, hsteps⟩) hone id
    have hnew := List.append_cancel_left (hstep.symm.trans hbegun)
    cases hl : s.launch? id a with
    | none => simp [hl] at hnew
    | some p => simpa [hl] using hnew
  obtain ⟨-, r, hr, hstage⟩ := launch?_eq_some_iff.1 hlaunch
  exact ((follows_of_steps? hs₀ hruns hattempts hsteps id).2 r hr).read
    (by simp [Run.pending?, hstage])

theorem consecutive_of_steps? {rest : List (Action α)} {more : List Stamped}
    (hrest : s.steps? rest = some (t, more))
    (halone : ∀ p ∈ s.observe Service.numberTaken? rest, p.1 = id) :
    (t.begun id).map Prod.snd ++ (t.number? id).toList =
      (s.begun id).map Prod.snd ++ (s.number? id).toList ++
        List.range' (s.generation + 1) (t.generation - s.generation) := by
  have hall : (s.observe Service.numberTaken? rest).filter (·.1 = id) =
      s.observe Service.numberTaken? rest :=
    List.filter_eq_self.2 fun p hp => decide_eq_true (halone p hp)
  rw [numbers_of_steps? hs₀ hruns hattempts hsteps id,
    numbers_of_steps? hs₀ hruns hattempts (steps?_append_eq_some hsteps hrest) id,
    observe_append hsteps, List.filter_append, List.map_append, hall,
    (numbersTaken_of_steps? hrest).1]

theorem memory_of_steps? (hr : s.run? id = some r) :
    r.lastText = ((s.begun id).map Prod.fst).getLast? :=
  ((follows_of_steps? hs₀ hruns hattempts hsteps id).2 r hr).last

end FromTheStart

/-- A run makes its attempts of the texts that it reads, without the empty ones first and then
without repetitions in a row, whatever else happens and in whatever order. -/
theorem run_collapses_texts {config : Config} {sink : MessageSink} {text : String}
    (hsteps : (ofConfig config sink text : Service α).steps? actions = some (s, sent)) (id : Nat) :
    Collapses (ofConfig config sink text) actions s id := by
  have hs₀ : (ofConfig config sink text : Service α).Reachable := ⟨config, sink, text, .refl _⟩
  have htexts := texts_of_steps? hs₀ rfl rfl hsteps id
  refine
    { texts := htexts
      completes := completes_of_steps? hs₀ rfl rfl hsteps id
      snapshot := fun _ hfirst => snapshot_of_steps? hs₀ rfl rfl hfirst
      consecutive := ?_
      extra := ?_
      idle := ?_
      memory := memory_of_steps? hs₀ rfl rfl hsteps
      fresh := fun hnone => ?_ }
  · intro first rest u told hsplit hfirst
    obtain ⟨u', told', more, hfirst', hrest⟩ := exists_of_steps?_append (hsplit ▸ hsteps)
    cases hfirst.symm.trans hfirst'
    exact consecutive_of_steps? hs₀ rfl rfl hfirst hrest
  · intro before more after hreads hold
    rw [htexts, hreads, withoutStutter_insert after hold]
  · intro t told hold hpoll
    have hs : s.Reachable := hs₀.reaches ⟨actions, sent, hsteps⟩
    obtain ⟨r, hr⟩ : ∃ r, s.run? id = some r := by
      cases Step.of_step? hpoll with
      | @run r _ _ _ _ hr h =>
        obtain rfl : r.id = id := Option.some.inj h.runner.symm
        exact ⟨r, hr⟩
      | attempt _ h => cases h
    have hmemory := memory_of_steps? hs₀ rfl rfl hsteps hr
    obtain rfl := id_of_run? hr
    exact undisturbed_of_poll hs hr (hmemory ▸ hold) hpoll
  · obtain ⟨hreads, hbegun, -⟩ := (follows_of_steps? hs₀ rfl rfl hsteps id).1 hnone
    exact ⟨hreads, hbegun⟩

/-- A run reads a text again, then an empty one, then the same text once more, and then another one.
A second run reads that one afresh. -/
def rereadText : List (Action Nat) :=
  [Action.start, Action.tick, Action.poll 1] ++ List.replicate 6 (Action.proceed 1) ++
    [Action.tick, Action.poll 1, Action.edit "", Action.tick, Action.poll 1, Action.edit "a",
      Action.tick, Action.poll 1, Action.edit "b", Action.tick, Action.poll 1] ++
    List.replicate 9 (Action.proceed 1) ++
    [Action.stop, Action.tellRun 0, Action.leave 1, Action.start, Action.tick, Action.poll 2] ++
    List.replicate 6 (Action.proceed 2)

theorem run_collapses_texts_reread : ∃ s : Service Nat, ∃ sent,
    (ofConfig {} {} "a").steps? rereadText = some (s, sent) ∧
    (ofConfig {} {} "a").observe (read? 1) rereadText = ["a", "a", "", "a", "b"] ∧
    s.begun 1 = [("a", 1), ("b", 2)] ∧ s.begun 2 = [("b", 3)] ∧
    Collapses (ofConfig {} {} "a") rereadText s 1 := by
  have hrun : ((ofConfig {} {} "a").steps? rereadText).map (fun (s, _) => (s.begun 1, s.begun 2)) =
      some ([("a", 1), ("b", 2)], [("b", 3)]) := by
    with_unfolding_all exact rfl
  have hreads : (ofConfig {} {} "a").observe (read? 1) rereadText = ["a", "a", "", "a", "b"] := by
    with_unfolding_all exact rfl
  obtain ⟨⟨s, sent⟩, hsteps, hseen⟩ := Option.map_eq_some_iff.1 hrun
  obtain ⟨hfirst, hsecond⟩ : _ ∧ _ := by simpa only [Prod.mk.injEq] using hseen
  exact ⟨s, sent, hsteps, hreads, hfirst, hsecond, run_collapses_texts hsteps 1⟩

end Service

end CompileWatch
