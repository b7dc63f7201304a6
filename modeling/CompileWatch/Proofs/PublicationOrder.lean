import CompileWatch.Proofs.Accounting
import CompileWatch.Proofs.Biography

/-!
# Stored and told

The slot takes artifacts by increasing numbers. That an attempt has published is told later: its
event is made, which gives it its number, and then sent, and others may act in between. An attempt
is overtaken if the slot takes the next artifact in that time. So the events tell the order of the
slot, in the order in which they are sent and by their numbers, but for attempts that are overtaken.
On the way to the subscribers the order of the bus is kept, but events may be lost.
-/
namespace CompileWatch

/-- The attempt that an event tells to have published. -/
def Event.publication? (e : Event) : Option Generation :=
  if e.kind = .attemptPublished then e.generation else none

theorem Event.publication?_eq_some_iff {e : Event} {g : Generation} :
    e.publication? = some g ↔ e.kind = .attemptPublished ∧ e.generation = some g := by
  simp [publication?]

theorem Event.isOfAttempt_of_publication? {e : Event} {g : Generation}
    (h : e.publication? = some g) : e.isOfAttempt g = true := by
  obtain ⟨hkind, hgeneration⟩ := publication?_eq_some_iff.1 h
  simp [isOfAttempt, hkind, hgeneration]

theorem Event.publication?_of_isReport {e : Event} (h : e.isReport = true) :
    e.publication? = none := by
  refine if_neg fun hkind => ?_
  simp [isReport, hkind] at h

namespace Service

variable {α : Type} {s t u v origin : Service α} {action : Action α} {actions : List (Action α)}
  {sent told : List Stamped} {e : Stamped} {g : Generation} {config : Config}
  {sink : MessageSink} {text : String}

/-- The attempts that are told to have published, in the order in which that is sent. -/
def publications (sent : List Stamped) : List Generation :=
  sent.filterMap (·.event.publication?)

/-- The numbers of the artifacts that the slot takes in a history, in order. -/
def stores (s : Service α) (actions : List (Action α)) : List Generation :=
  (s.observe accepted? actions).map (·.generation)

theorem mem_publications : g ∈ publications sent ↔ ∃ e ∈ sent, e.event.publication? = some g :=
  List.mem_filterMap

theorem publications_append (first second : List Stamped) :
    publications (first ++ second) = publications first ++ publications second :=
  List.filterMap_append

theorem stores_append {first second : List (Action α)} (h : s.steps? first = some (t, sent)) :
    s.stores (first ++ second) = s.stores first ++ t.stores second := by
  rw [stores, observe_append h, List.map_append, stores, stores]

/-! ## The order of the slot -/

/-- The slot takes artifacts by increasing numbers, and holds the last one that it took. -/
theorem stores_of_steps?
    (hsteps : (ofConfig config sink text : Service α).steps? actions = some (s, sent)) :
    ((ofConfig config sink text : Service α).stores actions).Pairwise (· < ·) ∧
      (∀ g ∈ (ofConfig config sink text : Service α).stores actions, g ≤ s.slot.stored) ∧
      ((ofConfig config sink text : Service α).stores actions).getLast? =
        s.slot.latest.map (·.generation) := by
  refine observe_induct (motive := fun u (seen : List (Artifact α)) =>
    (seen.map (·.generation)).Pairwise (· < ·) ∧
    (∀ g ∈ seen.map (·.generation), g ≤ u.slot.stored) ∧
    (seen.map (·.generation)).getLast? = u.slot.latest.map (·.generation))
    (fun {u v a told seen} hsu _ hone hu => ?_) hsteps ⟨.nil, nofun, rfl⟩
  obtain ⟨hincreasing, hbelow, hlast⟩ := hu
  have hnumbered := Reachable.numbered ⟨config, sink, text, hsu⟩
  have hstep := Step.of_step? hone
  have hlatest := hstep.slot.1
  cases hacc : u.accepted? a with
  | none =>
    rw [hacc, Option.none_or] at hlatest
    simp only [Option.toList_none, List.append_nil, Slot.stored, hlatest]
    exact ⟨hincreasing, hbelow, hlast⟩
  | some artifact =>
    rw [hacc, Option.some_or] at hlatest
    have hlt := (hnumbered.of_accepted? hacc).2.2
    have hstored : v.slot.stored = artifact.generation := by simp [Slot.stored, hlatest]
    rw [hstored, hlatest, Option.toList_some, List.map_append, List.map_singleton]
    refine ⟨List.pairwise_append.2 ⟨hincreasing, List.pairwise_singleton .., ?_⟩, ?_, by simp⟩
    · intro g hg k hk
      cases List.mem_singleton.1 hk
      exact Nat.lt_of_le_of_lt (hbelow g hg) hlt
    · intro g hg
      rcases List.mem_append.1 hg with hold | hnew
      · exact Nat.le_of_lt (Nat.lt_of_le_of_lt (hbelow g hold) hlt)
      · exact Nat.le_of_eq (List.mem_singleton.1 hnew)

/-! ## What is told was stored -/

/-- That an attempt has published is told by the attempt, with its last event. -/
theorem Step.of_publication? (h : Step s action t sent) (hs : s.Reachable) (he : e ∈ sent)
    (hg : e.event.publication? = some g) : action = .finish g ∧
      ∃ a succeeded, s.attempt? g = some a ∧ a.stage = .sending (.published succeeded) e := by
  obtain ⟨hkind, hgeneration⟩ := Event.publication?_eq_some_iff.1 hg
  cases h.sentBy hs.signed he with
  | run _ hrun _ => exact absurd (hrun.kind_of_mem he) (by simp [hkind])
  | start _ hevent | panic _ _ _ hevent =>
    rw [hevent] at hkind
    cases hkind
  | @last a how haction ha hstage hevent =>
    rw [hevent] at hkind hgeneration
    cases how with
    | published succeeded =>
      obtain rfl : a.generation = g := Option.some.inj hgeneration
      exact ⟨haction, a, succeeded, ha, hstage⟩
    | _ => cases hkind
  | retrieval haction _ =>
    subst haction
    have hcall := h.isOfCall_of_ask hs e he
    simp [Event.isOfCall, hkind] at hcall

/-- What is told to have published, the slot has taken. -/
theorem mem_stores_of_mem_publications
    (hsteps : (ofConfig config sink text : Service α).steps? actions = some (s, sent))
    (hg : g ∈ publications sent) : g ∈ (ofConfig config sink text : Service α).stores actions := by
  obtain ⟨e, he, hpublication⟩ := mem_publications.1 hg
  have hmem : e.event ∈ biography g sent := List.mem_filter.2
    ⟨List.mem_map_of_mem he, Event.isOfAttempt_of_publication? hpublication⟩
  have hkind := (Event.publication?_eq_some_iff.1 hpublication).1
  rcases (told_of_steps? hsteps g).of_mem hmem with hstart | ⟨a, words, -, hl, hword⟩
  · cases hkind.symm.trans hstart
  · obtain ⟨artifact, hacc, hgeneration⟩ :=
      (published_mem_iff hsteps).1 (hl.published hword hkind)
    exact List.mem_map.2 ⟨artifact, hacc, hgeneration⟩

/-- What the slot has taken is told, or its attempt has still to tell it. -/
theorem publications_or_untold
    (hsteps : (ofConfig config sink text : Service α).steps? actions = some (s, sent))
    (hg : g ∈ (ofConfig config sink text : Service α).stores actions) :
    g ∈ publications sent ∨
      ∃ a succeeded, s.attempt? g = some a ∧ a.stage.untold? = some (.published succeeded) := by
  obtain ⟨artifact, hacc, hgeneration⟩ := List.mem_map.1 hg
  obtain ⟨cancelled, hoffered⟩ := (published_mem_iff hsteps).2 ⟨artifact, hacc, hgeneration⟩
  obtain ⟨a, words, ha, hl, hsaid⟩ := (told_of_steps? hsteps g).of_act hoffered
  rcases hl.of_published hoffered with ⟨event, hword, hkind⟩ | ⟨succeeded, huntold⟩
  · have hmem : event ∈ biography g sent := hsaid ▸ List.mem_cons_of_mem _ hword
    obtain ⟨hsent, hof⟩ := List.mem_filter.1 hmem
    obtain ⟨e, he, rfl⟩ := List.mem_map.1 hsent
    refine .inl (mem_publications.2 ⟨e, he, Event.publication?_eq_some_iff.2 ⟨hkind, ?_⟩⟩)
    simpa [Event.isOfAttempt, hkind] using hof
  · exact .inr ⟨a, succeeded, ha, huntold⟩

/-- An attempt that has still to tell how it ended has not told it. -/
theorem not_mem_publications_of_untold
    (hsteps : (ofConfig config sink text : Service α).steps? actions = some (s, sent))
    {a : Attempt α} {how : Attempt.Conclusion} (ha : s.attempt? g = some a)
    (huntold : a.stage.untold? = some how) : g ∉ publications sent := by
  intro hg
  obtain ⟨e, he, hpublication⟩ := mem_publications.1 hg
  have hmem : e.event ∈ biography g sent := List.mem_filter.2
    ⟨List.mem_map_of_mem he, Event.isOfAttempt_of_publication? hpublication⟩
  have hkind := (Event.publication?_eq_some_iff.1 hpublication).1
  obtain ⟨words, hl, hsaid⟩ := (told_of_steps? hsteps g).of_attempt? ha
  obtain ⟨outcome, rest, -, -, rfl⟩ := hl.of_untold huntold
  rw [hsaid] at hmem
  rcases List.mem_cons.1 hmem with hstart | hpanic
  · rw [hstart] at hkind
    cases hkind
  · obtain ⟨text, hevent⟩ := Attempt.exists_of_mem_panics hpanic
    rw [hevent] at hkind
    cases hkind

/-- Nobody is told to have published twice. -/
theorem nodup_publications
    (hsteps : (ofConfig config sink text : Service α).steps? actions = some (s, sent)) :
    (publications sent).Nodup := by
  refine steps?_induct (motive := fun _ _ sent => (publications sent).Nodup)
    (fun {first u v a told more} hfirst hone ih => ?_) .nil hsteps
  have hstep := Step.of_step? hone
  have hu : u.Reachable := ⟨config, sink, text, first, told, hfirst⟩
  rw [publications_append]
  refine List.nodup_append.2 ⟨ih, ?_, fun g hg k hk => ?_⟩
  · rcases hstep.sent_eq with rfl | ⟨e, rfl⟩
    · exact .nil
    · cases h : e.event.publication? <;> simp [publications, h]
  · rintro rfl
    obtain ⟨e, he, hpublication⟩ := mem_publications.1 hk
    obtain ⟨-, b, succeeded, hb, hstage⟩ := hstep.of_publication? hu he hpublication
    have huntold : b.stage.untold? = some (.published succeeded) := by
      rw [hstage]
      rfl
    exact not_mem_publications_of_untold hfirst hb huntold hg

/-! ## The numbers of events -/

theorem nextSeq_afterMove (s : Service α) (a : Attempt α) (move : Attempt.Move α) :
    (s.afterMove a move).nextSeq = if move.stamps then s.nextSeq + 1 else s.nextSeq := by
  unfold afterMove
  dsimp only
  split <;> split <;> rfl

theorem Step.nextSeq_le (h : Step s action t sent) : s.nextSeq ≤ t.nextSeq := by
  cases h with
  | report _ | start _ => exact Nat.le_succ _
  | run _ h =>
    cases h
    case announceChange | announceSuperseded | announceStart | announceGrace | announceEnd =>
      exact Nat.le_succ _
    all_goals exact Nat.le_refl _
  | attempt _ h =>
    cases h with
    | @move move _ =>
      rw [nextSeq_afterMove]
      split
      · exact Nat.le_succ _
      · exact Nat.le_refl _
    | _ => exact Nat.le_refl _
  | _ => exact Nat.le_refl _

/-- The last event of an attempt was made before a step, or is made in it with the next number. -/
theorem Step.of_sending (h : Step s action t sent) {a' : Attempt α} {how : Attempt.Conclusion}
    (ha' : t.attempt? g = some a') (hs' : a'.stage = .sending how e) :
    (∃ a, s.attempt? g = some a ∧ a.stage = .sending how e) ∨ e.seq = s.nextSeq := by
  cases ha : s.attempt? g with
  | none =>
    rcases h.attempt?_of_none ha with hnone | ⟨r, text, -, -, -, -, hnew⟩
    · cases ha'.symm.trans hnone
    · cases ha'.symm.trans hnew
      cases hs'
  | some a =>
    rcases h.own_or_touch ha with ⟨a₁, hown, ha₁⟩ | ⟨a₁, ha₁, htouch, -⟩
    · cases ha'.symm.trans ha₁
      cases hown with
      | take _ =>
        unfold taken at hs'
        split at hs' <;> cases hs'
      | cancelItself _ => exact .inl ⟨a, rfl, hs'⟩
      | @answer outcome _ =>
        have hstage : (answered s.now outcome a).stage = a.stageAfter outcome := rfl
        rw [hstage] at hs'
        unfold Attempt.stageAfter at hs'
        split at hs' <;> cases hs'
      | move hmove =>
        cases Attempt.MoveStep.of_next? hmove with
        | stampEnd _ =>
          cases hs'
          exact .inr rfl
        | _ => cases hs'
    · cases ha'.symm.trans ha₁
      exact .inl ⟨a, rfl, htouch.kept.2.2.2 ▸ hs'⟩

/-- The number of the event with which the attempt `g` ends is `n` or comes after it. -/
structure NotBefore (n : Nat) (g : Generation) (s : Service α) (sent : List Stamped) : Prop where
  le : n ≤ s.nextSeq
  made {a : Attempt α} {how : Attempt.Conclusion} {e : Stamped} : s.attempt? g = some a →
    a.stage = .sending how e → n ≤ e.seq
  told {e : Stamped} : e ∈ sent → e.event.publication? = some g → n ≤ e.seq

theorem NotBefore.step {n : Nat} (h : NotBefore n g s told) (hs : s.Reachable)
    (hstep : Step s action t sent) : NotBefore n g t (told ++ sent) where
  le := Nat.le_trans h.le hstep.nextSeq_le
  made ha' hstage' := by
    rcases hstep.of_sending ha' hstage' with ⟨a, ha, hstage⟩ | hseq
    · exact h.made ha hstage
    · exact hseq ▸ h.le
  told he hg := by
    rcases List.mem_append.1 he with hold | hnew
    · exact h.told hold hg
    · obtain ⟨-, a, succeeded, ha, hstage⟩ := hstep.of_publication? hs hnew hg
      exact h.made ha hstage

theorem NotBefore.steps? {n : Nat} (h : NotBefore n g s []) (hs : s.Reachable)
    (hsteps : s.steps? actions = some (t, sent)) : NotBefore n g t sent :=
  steps?_induct (motive := fun _ t sent => NotBefore n g t sent)
    (fun hfirst hone ih => ih.step (hs.reaches ⟨_, _, hfirst⟩) (.of_step? hone)) h hsteps

/-! ## The order of the events -/

/-- Does the slot take the artifact `j` when it has taken `i`, in a state that is `late`? -/
def Overtaken (origin : Service α) (actions : List (Action α)) (i j : Generation)
    (late : Service α → List Stamped → Prop) : Prop :=
  ∃ first action u told artifact, origin.Meets actions first action u told ∧
    u.accepted? action = some artifact ∧ artifact.generation = j ∧ i ∈ origin.stores first ∧
    late u told

/-- What the slot has taken it took at some moment, and what it has taken with smaller numbers it
took before that. -/
theorem exists_meets_of_mem_stores
    (hsteps : (ofConfig config sink text : Service α).steps? actions = some (s, sent))
    (hg : g ∈ (ofConfig config sink text : Service α).stores actions) :
    ∃ first action u told artifact, (ofConfig config sink text).Meets actions first action u told ∧
      u.accepted? action = some artifact ∧ artifact.generation = g ∧
      ∀ k ∈ (ofConfig config sink text : Service α).stores actions, k < g →
        k ∈ (ofConfig config sink text : Service α).stores first := by
  obtain ⟨artifact, hartifact, rfl⟩ := List.mem_map.1 hg
  obtain ⟨first, action, rest, u, told, rfl, hfirst, hacc⟩ := exists_of_mem_observe hartifact
  refine ⟨first, action, u, told, artifact, ⟨⟨rest, by simp⟩, hfirst⟩, hacc, rfl,
    fun k hk hlt => ?_⟩
  obtain ⟨u', told', later, hfirst', hlater⟩ := exists_of_steps?_append hsteps
  cases hfirst.symm.trans hfirst'
  obtain ⟨v, now, more, hone, -⟩ := steps?_cons_eq_some hlater
  have hstores : u.stores (action :: rest) = artifact.generation :: v.stores rest := by
    rw [stores, observe_cons hone, hacc]
    rfl
  have hincreasing := (stores_of_steps? hsteps).1
  rw [stores_append hfirst, hstores] at hincreasing hk
  rcases List.mem_append.1 hk with hbefore | hafter
  · exact hbefore
  · -- what comes later has a larger number
    rcases List.mem_cons.1 hafter with rfl | hafter
    · exact absurd hlt (Nat.lt_irrefl _)
    · have hlater := (List.pairwise_cons.1 (List.pairwise_append.1 hincreasing).2.1).1 k hafter
      exact absurd hlt (Nat.lt_asymm hlater)

/-- When the slot takes an artifact, nobody has been told of it, and the event that tells of it has
no number yet. -/
theorem told_after_stored {first : List (Action α)} {artifact : Artifact α}
    (hsteps : (ofConfig config sink text : Service α).steps? actions = some (s, sent))
    (hmeets : (ofConfig config sink text).Meets actions first action u told)
    (hacc : u.accepted? action = some artifact) :
    artifact.generation ∉ publications told ∧ (∃ later, sent = told ++ later) ∧
      ∀ e ∈ sent, e.event.publication? = some artifact.generation → u.nextSeq ≤ e.seq := by
  obtain ⟨⟨rest, rfl⟩, hfirst⟩ := hmeets
  rw [List.append_assoc] at hsteps
  obtain ⟨u', told', later, hfirst', hlater⟩ := exists_of_steps?_append hsteps
  cases hfirst.symm.trans hfirst'
  cases hsteps.symm.trans (steps?_append_eq_some hfirst hlater)
  have hu : u.Reachable := ⟨config, sink, text, first, told, hfirst⟩
  obtain ⟨⟨a, -, ha, hstage, -⟩, -, hnewer⟩ := hu.numbered.of_accepted? hacc
  have hnew : artifact.generation ∉ publications told := by
    intro hmem
    have hold := (stores_of_steps? hfirst).2.1 _ (mem_stores_of_mem_publications hfirst hmem)
    exact absurd hnewer (Nat.not_lt.2 hold)
  -- the attempt that makes the offer has not made its last event
  have hnot : NotBefore u.nextSeq artifact.generation u [] :=
    { le := Nat.le_refl _
      made := fun ha' hsending => by
        cases ha.symm.trans ha'
        cases hstage.symm.trans hsending
      told := nofun }
  refine ⟨hnew, ⟨later, rfl⟩, fun e he hg => ?_⟩
  rcases List.mem_append.1 he with hold | hafter
  · exact absurd (mem_publications.2 ⟨e, hold, hg⟩) hnew
  · exact (hnot.steps? hu hlater).told hafter hg

/-- The numbers of the events tell the order of the slot, but that an attempt may be overtaken
before its event has one. -/
theorem overtaken_of_seq_le {e' : Stamped} {i j : Generation}
    (hsteps : (ofConfig config sink text : Service α).steps? actions = some (s, sent))
    (he : e ∈ sent) (he' : e' ∈ sent) (hj : e.event.publication? = some j)
    (hi : e'.event.publication? = some i) (hseq : e.seq ≤ e'.seq) (hlt : i < j) :
    (ofConfig config sink text).Overtaken actions i j fun u _ => u.nextSeq ≤ e'.seq := by
  have hstored := mem_stores_of_mem_publications hsteps (mem_publications.2 ⟨e, he, hj⟩)
  have hstored' := mem_stores_of_mem_publications hsteps (mem_publications.2 ⟨e', he', hi⟩)
  obtain ⟨first, action, u, told, artifact, hmeets, hacc, rfl, hbefore⟩ :=
    exists_meets_of_mem_stores hsteps hstored
  have hnumber := (told_after_stored hsteps hmeets hacc).2.2 e he hj
  exact ⟨first, action, u, told, artifact, hmeets, hacc, rfl, hbefore i hstored' hlt,
    Nat.le_trans hnumber hseq⟩

/-- The order in which the events are sent tells the order of the slot, but that an attempt may be
overtaken before it sends its event. -/
theorem publications_inOrder
    (hsteps : (ofConfig config sink text : Service α).steps? actions = some (s, sent)) :
    (publications sent).Pairwise fun j i => j < i ∨
      (ofConfig config sink text).Overtaken actions i j fun _ told => i ∉ publications told := by
  have hnodup := nodup_publications hsteps
  refine List.pairwise_iff_forall_sublist.2 fun {j i} hsub => ?_
  have hne : j ≠ i := by simpa using hsub.nodup hnodup
  rcases Nat.lt_or_gt_of_ne hne with hlt | hlt
  · exact .inl hlt
  right
  have hstored := mem_stores_of_mem_publications hsteps (hsub.subset (by simp : j ∈ [j, i]))
  have hstored' := mem_stores_of_mem_publications hsteps (hsub.subset (by simp : i ∈ [j, i]))
  obtain ⟨first, action, u, told, artifact, hmeets, hacc, rfl, hbefore⟩ :=
    exists_meets_of_mem_stores hsteps hstored
  refine ⟨first, action, u, told, artifact, hmeets, hacc, rfl, hbefore i hstored' hlt,
    fun htold => ?_⟩
  -- what was told before that cannot come after what was told later
  obtain ⟨hnew, ⟨later, rfl⟩, -⟩ := told_after_stored hsteps hmeets hacc
  rw [publications_append] at hsub hnodup
  obtain ⟨early, rest, heq, hearly, hrest⟩ := List.sublist_append_iff.1 hsub
  cases early with
  | nil =>
    obtain rfl : [artifact.generation, i] = rest := heq
    exact (List.nodup_append.1 hnodup).2.2 i htold i (hrest.subset (by simp)) rfl
  | cons k early =>
    obtain ⟨rfl, -⟩ : artifact.generation = k ∧ _ := List.cons.inj heq
    exact hnew (hearly.subset (by simp))

/-- What the events tell of the order in which the slot took artifacts, in a history `actions` from
`origin` to `s`, in which `sent` was sent. -/
structure TellsOrder (origin : Service α) (actions : List (Action α)) (s : Service α)
    (sent : List Stamped) : Prop where
  /-- The slot takes artifacts by increasing numbers, and holds the last one. -/
  increasing : (origin.stores actions).Pairwise (· < ·)
  newest : (origin.stores actions).getLast? = s.slot.latest.map (·.generation)
  /-- What is told was stored, and nothing is told twice. -/
  stored {g : Generation} : g ∈ publications sent → g ∈ origin.stores actions
  once : (publications sent).Nodup
  /-- What was stored is told, or its attempt tells it after three more steps at most. -/
  told {g : Generation} : g ∈ origin.stores actions → g ∈ publications sent ∨
    ∃ a, s.attempt? g = some a ∧ ∃ n ≤ 3, ∃ succeeded,
      s.SaysAfter n (.finish g) g (a.lastEvent (.published succeeded))
  /-- An older attempt is told of later only if it was overtaken before it told that itself, -/
  sending : (publications sent).Pairwise fun j i => j < i ∨
    origin.Overtaken actions i j fun _ told => i ∉ publications told
  /-- and its event has a larger number only if it was overtaken before the event had one. -/
  numbering {e e' : Stamped} {i j : Generation} : e ∈ sent → e' ∈ sent →
    e.event.publication? = some j → e'.event.publication? = some i → e.seq ≤ e'.seq → i < j →
    origin.Overtaken actions i j fun u _ => u.nextSeq ≤ e'.seq

theorem tellsOrder_of_steps?
    (hsteps : (ofConfig config sink text : Service α).steps? actions = some (s, sent)) :
    TellsOrder (ofConfig config sink text) actions s sent where
  increasing := (stores_of_steps? hsteps).1
  newest := (stores_of_steps? hsteps).2.2
  stored hg := mem_stores_of_mem_publications hsteps hg
  once := nodup_publications hsteps
  told hg := by
    refine (publications_or_untold hsteps hg).imp_right fun ⟨a, succeeded, ha, huntold⟩ => ?_
    have hs : s.Reachable := ⟨config, sink, text, actions, sent, hsteps⟩
    obtain ⟨n, hn, hsays⟩ := hs.saysAfter_of_untold ha huntold
    exact ⟨a, ha, n, hn, succeeded, hsays⟩
  sending := publications_inOrder hsteps
  numbering he he' hj hi hseq hlt := overtaken_of_seq_le hsteps he he' hj hi hseq hlt

/-- What somebody has heard of the publications, who got some of the events of a history. -/
structure Heard (origin : Service α) (actions : List (Action α)) (s : Service α)
    (sent : List Stamped) (heard : List Generation) : Prop where
  /-- He heard of them in the order in which they were sent, but perhaps not of all of them. -/
  sublist : heard.Sublist (publications sent)
  /-- If he heard of the newest, he heard of it last, but for attempts that it has overtaken. -/
  last {i : Generation} : s.slot.stored ∈ heard → heard.getLast? = some i → i = s.slot.stored ∨
    origin.Overtaken actions i s.slot.stored fun _ told => i ∉ publications told

theorem heard_of_sublist {heard : List Generation}
    (hsteps : (ofConfig config sink text : Service α).steps? actions = some (s, sent))
    (hsub : heard.Sublist (publications sent)) :
    Heard (ofConfig config sink text) actions s sent heard where
  sublist := hsub
  last {i} hnewest hlast := by
    obtain ⟨before, rfl⟩ := List.getLast?_eq_some_iff.1 hlast
    rcases List.mem_append.1 hnewest with hbefore | hself
    · have hstored := mem_stores_of_mem_publications hsteps (hsub.subset (by simp : i ∈ _))
      have hle := (stores_of_steps? hsteps).2.1 i hstored
      have hpair := (List.pairwise_append.1 ((publications_inOrder hsteps).sublist hsub)).2.2
      exact .inr ((hpair _ hbefore i (by simp)).resolve_left (Nat.not_lt.2 hle))
    · exact .inl (List.mem_singleton.1 hself).symm

end Service

/-- The event that the listener got. -/
def Note.received? : Note → Option Event
  | received e => some e
  | _ => none

/-- What comes on the bus was sent from outside, or is a report about a subscriber. -/
theorem Note.of_onBus? {names : List String} {note : Note} {e : Event}
    (h : note.onBus? names = some e) : note = .sent e ∨ e.isReport = true := by
  cases note with
  | sent e' =>
    cases h
    exact .inl rfl
  | offered i e' answer =>
    simp only [onBus?, Option.ite_none_left_eq_some, Option.map_eq_some_iff] at h
    obtain ⟨-, name, -, rfl⟩ := h
    exact .inr rfl
  | handled i e' panic =>
    cases panic with
    | none => cases h
    | some payload =>
      obtain ⟨name, -, rfl⟩ := Option.map_eq_some_iff.1 h
      exact .inr rfl
  | _ => cases h

namespace Delivery

variable {d t : Delivery} {action : Action} {actions : List Action} {e : Event} {i : Nat}
  {busCapacity : Nat} {crew : List (String × Nat)}

/-! ## On the bus and from there -/

/-- A step publishes no news of the slot but what is sent from outside. -/
theorem Step.publications (h : Step d action t) :
    t.bus.published.filterMap Event.publication? =
      d.bus.published.filterMap Event.publication? ++
        action.sent?.toList.filterMap Event.publication? := by
  rw [h.published, List.filterMap_append]
  congr 1
  have quiet (hnot : action.sent? = none) : ((d.note? action).bind
      (Note.onBus? (d.subscribers.map (·.name)))).toList.filterMap Event.publication? = [] := by
    refine List.filterMap_eq_nil_iff.2 fun e he => ?_
    obtain ⟨note, hnote, hbus⟩ := Option.bind_eq_some_iff.1 (Option.mem_toList.1 he)
    rcases Note.of_onBus? hbus with rfl | hreport
    · cases hnot.symm.trans (fits_of_note? hnote)
    · exact Event.publication?_of_isReport hreport
  cases action with
  | publish e => rfl
  | _ => exact quiet rfl

/-- The news of the slot come on the bus as they are sent. -/
theorem publications_of_steps? (h : d.steps? actions = some t) :
    t.bus.published.filterMap Event.publication? =
      d.bus.published.filterMap Event.publication? ++
        (actions.filterMap Action.sent?).filterMap Event.publication? := by
  induction actions generalizing d with
  | nil =>
    cases h
    simp
  | cons a rest ih =>
    obtain ⟨u, hone, hrest⟩ := exists_of_steps?_cons h
    rw [ih hrest, (Step.of_step? hone).publications, List.append_assoc, ← List.filterMap_append]
    cases hsent : a.sent? <;> simp [hsent]

/-- Only when it listens the listener goes on. -/
theorem Step.position_eq (h : Step d action t) (hnot : action ≠ .listen) :
    t.position = d.position := by
  cases h with
  | listen _ _ _ _ | fallBehind _ _ _ => exact absurd rfl hnot
  | offer _ | hand _ _ => exact position_passOn ..
  | _ => rfl

theorem received?_of_ne_listen (d : Delivery) (hnot : action ≠ .listen) :
    (d.note? action).bind Note.received? = none := by
  refine Option.bind_eq_none_iff.2 fun note hnote => ?_
  have hfits := fits_of_note? hnote
  cases note with
  | received e => exact absurd hfits hnot
  | _ => rfl

/-- The listener gets events in the order of the bus. -/
theorem received_sublist (h : (start busCapacity crew).steps? actions = some d) :
    (((start busCapacity crew).record actions).filterMap Note.received?).Sublist
      d.bus.published := by
  -- they are among those before its position
  have hrun : (((start busCapacity crew).record actions).filterMap Note.received?).Sublist
      (d.bus.published.take d.position) := by
    refine record_induct (motive := fun u notes =>
      (notes.filterMap Note.received?).Sublist (u.bus.published.take u.position)) ?_ h .slnil
    intro u v a notes _ hstep ih
    rw [filterMap_append_toList]
    by_cases hlisten : a = .listen
    · subst hlisten
      cases hstep with
      | listen _ _ hold he =>
        rw [note?_listen hold he]
        dsimp only
        rw [List.take_add_one, he]
        exact ih.append (List.Sublist.refl [_])
      | fallBehind _ _ hbehind =>
        rw [note?_fallBehind hbehind]
        exact (List.append_nil _).symm ▸
          ih.trans (List.take_sublist_take_left (Nat.le_of_lt hbehind))
    · rw [received?_of_ne_listen u hlisten, hstep.position_eq hlisten, hstep.published,
        List.take_append]
      exact (List.append_nil _).symm ▸ ih.trans (List.sublist_append_left ..)
  exact hrun.trans (List.take_sublist ..)

/-! ## The order that is heard -/

/-- **What is told of the order of the slot.** Whatever happens in a service and on the way from the
bus to the subscribers, the slot takes artifacts by increasing numbers, and each of them is told
once. The events tell the same order, on the bus and by their numbers, but that an attempt may be
overtaken: the slot may take the next artifact before the event of the last one is sent, or has a
number. Whoever gets events from the bus, as the listener and the subscribers do, may miss some and
hears the others in this order; if he hears of the newest artifact, he hears of it last, but for
attempts that were overtaken by it. -/
theorem publications_tell_order_of_slot {α : Type} {config : Config} {sink : MessageSink}
    {text : String} {moves : List (CompileWatch.Action α)} {s : Service α} {sent : List Stamped}
    (hservice : (Service.ofConfig config sink text).steps? moves = some (s, sent))
    (h : (start busCapacity crew).steps? actions = some d)
    (hfed : actions.filterMap Action.sent? = sent.map (·.event))
    (hengine : ∀ a ∈ actions, a.inEngine = true) :
    Service.TellsOrder (.ofConfig config sink text) moves s sent ∧
    d.bus.published.filterMap Event.publication? = Service.publications sent ∧
    (∀ got : List Event, got.Sublist d.bus.published →
      Service.Heard (.ofConfig config sink text) moves s sent
        (got.filterMap Event.publication?)) ∧
    (((start busCapacity crew).record actions).filterMap Note.received?).Sublist
      d.bus.published ∧
    ∀ i < crew.length,
      (((start busCapacity crew).record actions).filterMap (Note.handled? i)).Sublist
        d.bus.published := by
  have hbus : d.bus.published.filterMap Event.publication? = Service.publications sent := by
    rw [publications_of_steps? h, hfed, List.filterMap_map]
    rfl
  refine ⟨Service.tellsOrder_of_steps? hservice, hbus, fun got hgot => ?_, received_sublist h,
    fun i hi => ?_⟩
  · exact Service.heard_of_sublist hservice (hbus ▸ hgot.filterMap Event.publication?)
  · obtain ⟨fates, hfates⟩ := (ledger_of_steps? h hengine hi).exists_accountsFor
    obtain ⟨r, -, -, ⟨queued, htaken, -⟩, ⟨held, hhandled, -⟩⟩ := exists_passed h hi
    have hhandled : _ <+: _ := ⟨held, hhandled.symm⟩
    have htaken : _ <+: _ := ⟨queued, htaken.symm⟩
    exact (hhandled.trans htaken).sublist.trans hfates.accepted_sublist

/-- The slot takes the artifact of the first attempt. -/
def firstStored : List (CompileWatch.Action Nat) :=
  [.start, .tick, .poll 1] ++ List.replicate 6 (.proceed 1) ++
    [.take 1, .compiled 1 (.value 5), .finish 1]

/-- A second attempt is started and its compiler comes back. -/
def secondCompiled : List (CompileWatch.Action Nat) :=
  [.edit "b", .tick, .poll 1] ++ List.replicate 9 (.proceed 1) ++
    [.take 2, .compiled 2 (.value 7)]

/-- The first attempt tells that it has published, and then the second one publishes. -/
def inTurn : List (CompileWatch.Action Nat) :=
  firstStored ++ List.replicate 3 (.finish 1) ++ secondCompiled ++ List.replicate 4 (.finish 2)

/-- The second attempt publishes and tells so before the first one has told it. -/
def overtaking : List (CompileWatch.Action Nat) :=
  firstStored ++ secondCompiled ++ List.replicate 4 (.finish 2) ++ List.replicate 3 (.finish 1)

/-- All is handed out as it is sent. The one subscriber has seven places for eight events, and its
worker begins late. -/
def crammed (sent : List Stamped) : List Action :=
  sent.flatMap (fun e => [.publish e.event, .listen, .hand, .hand]) ++ [.listen, .hand, .hand] ++
    (List.replicate 7 [.receive 0, .finish 0 none]).flatten

theorem sent_of_crammed (sent : List Stamped) :
    (crammed sent).filterMap Action.sent? = sent.map (·.event) := by
  induction sent with
  | nil => rfl
  | cons e rest ih => exact congrArg (e.event :: ·) ih

theorem inEngine_of_crammed (sent : List Stamped) : ∀ a ∈ crammed sent, a.inEngine = true := by
  induction sent with
  | nil => decide
  | cons e rest ih => simpa [crammed, Action.inEngine] using ih

theorem publications_tell_order_of_slot_overtaking : ∃ s sent d,
    (Service.ofConfig {} {} "a").steps? overtaking = some (s, sent) ∧
    (start 8 [("s", 7)]).steps? (crammed sent) = some d ∧
    (crammed sent).filterMap Action.sent? = sent.map (·.event) ∧
    (∀ a ∈ crammed sent, a.inEngine = true) ∧
    Service.TellsOrder (.ofConfig {} {} "a") overtaking s sent ∧
    (Service.ofConfig {} {} "a").Overtaken overtaking 1 2
      (fun _ told => 1 ∉ Service.publications told) ∧
    Service.Heard (.ofConfig {} {} "a") overtaking s sent [2] := by
  have hrun : ((Service.ofConfig {} {} "a").steps? overtaking).map (fun p =>
      (Service.publications p.2, ((start 8 [("s", 7)]).steps? (crammed p.2)).isSome,
        (((start 8 [("s", 7)]).record (crammed p.2)).filterMap (Note.handled? 0)).filterMap
          Event.publication?)) = some ([2, 1], true, [2]) := by
    with_unfolding_all exact rfl
  obtain ⟨⟨s, sent⟩, hservice, hseen⟩ := Option.map_eq_some_iff.1 hrun
  obtain ⟨htold, hgoes, hhandled⟩ : _ ∧ _ ∧ _ := by simpa only [Prod.mk.injEq] using hseen
  obtain ⟨d, h⟩ := Option.isSome_iff_exists.1 hgoes
  obtain ⟨horder, -, hheard, -, hsub⟩ := publications_tell_order_of_slot hservice h
    (sent_of_crammed sent) (inEngine_of_crammed sent)
  have hsending := htold ▸ horder.sending
  refine ⟨s, sent, d, hservice, h, sent_of_crammed sent, inEngine_of_crammed sent, horder, ?_,
    hhandled ▸ hheard _ (hsub 0 Nat.zero_lt_one)⟩
  exact ((List.pairwise_cons.1 hsending).1 1 (by simp)).resolve_left (by decide)

/-- The events do not tell the order of the slot, on the bus or by their numbers, when an attempt is
overtaken; and when none is, a subscriber that has handled all that it accepted may still have heard
last of an artifact that is not the newest, for the last event found its queue full. -/
theorem told_out_of_order :
    (∃ s sent, (Service.ofConfig {} {} "a").steps? overtaking = some (s, sent) ∧
      (Service.ofConfig {} {} "a").stores overtaking = [1, 2] ∧ s.slot.stored = 2 ∧
      Service.publications sent = [2, 1] ∧ sent.map (·.seq) = [0, 1, 2, 3, 4, 5, 6, 7]) ∧
    ∃ s sent d, (Service.ofConfig {} {} "a").steps? inTurn = some (s, sent) ∧
      (start 8 [("s", 7)]).steps? (crammed sent) = some d ∧
      (crammed sent).filterMap Action.sent? = sent.map (·.event) ∧
      (∀ a ∈ crammed sent, a.inEngine = true) ∧
      s.slot.stored = 2 ∧ Service.publications sent = [1, 2] ∧
      d.bus.published.length ≤ d.position ∧ d.handing = none ∧
      d.subscribers.map Subscriber.load = [[]] ∧
      (((start 8 [("s", 7)]).record (crammed sent)).filterMap (Note.handled? 0)).filterMap
        Event.publication? = [1] := by
  constructor
  · have hrun : ((Service.ofConfig {} {} "a").steps? overtaking).map (fun p =>
        (p.1.slot.stored, Service.publications p.2, p.2.map (·.seq))) =
        some (2, [2, 1], [0, 1, 2, 3, 4, 5, 6, 7]) := by
      with_unfolding_all exact rfl
    have hstores : (Service.ofConfig {} {} "a").stores overtaking = [1, 2] := by
      with_unfolding_all exact rfl
    obtain ⟨⟨s, sent⟩, hservice, hseen⟩ := Option.map_eq_some_iff.1 hrun
    obtain ⟨hnewest, htold, hseq⟩ : _ ∧ _ ∧ _ := by simpa only [Prod.mk.injEq] using hseen
    exact ⟨s, sent, hservice, hstores, hnewest, htold, hseq⟩
  · have hrun : ((Service.ofConfig {} {} "a").steps? inTurn).map (fun p =>
        (p.1.slot.stored, Service.publications p.2,
          ((start 8 [("s", 7)]).steps? (crammed p.2)).map (fun d =>
            (d.bus.published.length - d.position, d.handing, d.subscribers.map Subscriber.load)),
          (((start 8 [("s", 7)]).record (crammed p.2)).filterMap (Note.handled? 0)).filterMap
            Event.publication?)) = some (2, [1, 2], some (0, none, [[]]), [1]) := by
      with_unfolding_all exact rfl
    obtain ⟨⟨s, sent⟩, hservice, hseen⟩ := Option.map_eq_some_iff.1 hrun
    obtain ⟨hnewest, htold, hgoes, hhandled⟩ : _ ∧ _ ∧ _ ∧ _ := by
      simpa only [Prod.mk.injEq] using hseen
    obtain ⟨d, h, hrest⟩ := Option.map_eq_some_iff.1 hgoes
    obtain ⟨hread, hhanding, hload⟩ : _ ∧ _ ∧ _ := by simpa only [Prod.mk.injEq] using hrest
    exact ⟨s, sent, d, hservice, h, sent_of_crammed sent, inEngine_of_crammed sent, hnewest, htold,
      Nat.le_of_sub_eq_zero hread, hhanding, hload, hhandled⟩

end Delivery

end CompileWatch
