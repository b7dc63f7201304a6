import CompileWatch.Message.Shared
import Mathlib.Data.List.DropRight
import Mathlib.Data.List.Induction

/-!
# No message is lost

A log that any number of clients call at the same time. What drains have given out and what is
still there make up, put together, all that was ever written, in the order in which the calls took
the lock, with each batch in one piece. A client that is alone cannot tell whether its batches are
written under one lock or one diagnostic at a time; two clients can.
-/
namespace CompileWatch

namespace MessageLog

/-! ## What is reported -/

/-- The diagnostics that a log reports under a severity. -/
def reported (l : MessageLog) (severity : Severity) : List Diagnostic :=
  (l.messages severity).map (Diagnostic.mk severity)

theorem reported_eq_filter (l : MessageLog) (severity : Severity) :
    l.reported severity = l.entries.toList.filter (·.severity = severity) := by
  unfold reported messages
  rw [List.map_map]
  refine (List.map_congr_left ?_).trans (List.map_id _)
  intro d hd
  have hseverity : d.severity = severity := by simpa using (List.mem_filter.1 hd).2
  subst hseverity
  rfl

theorem mem_reported_iff {l : MessageLog} {severity : Severity} {d : Diagnostic} :
    d ∈ l.reported severity ↔ d ∈ l.entries.toList ∧ d.severity = severity := by
  rw [reported_eq_filter, List.mem_filter, decide_eq_true_iff]

/-- An entry is reported under its own severity, as often as it is there, and under no other. -/
theorem count_reported (l : MessageLog) (severity : Severity) (d : Diagnostic) :
    (l.reported severity).count d =
      if d.severity = severity then l.entries.toList.count d else 0 := by
  rw [reported_eq_filter]
  by_cases h : d.severity = severity
  · rw [if_pos h, List.count_filter (by simpa using h)]
  · rw [if_neg h, List.count_eq_zero]
    intro hd
    exact h (by simpa using (List.mem_filter.1 hd).2)

theorem reported_perm (l : MessageLog) :
    (l.reported .info ++ l.reported .warning ++ l.reported .error).Perm l.entries.toList := by
  rw [List.perm_iff_count]
  intro d
  simp only [List.count_append, count_reported]
  cases d.severity <;> simp

/-- What a log reports is what is in it, told apart by severity. -/
structure Reports (l : MessageLog) : Prop where
  /-- Under a severity stand the entries of that severity, in their order. -/
  inOrder (severity : Severity) :
    l.reported severity = l.entries.toList.filter (·.severity = severity)
  /-- Every entry stands under exactly one severity. -/
  under (d : Diagnostic) : d ∈ l.entries → ∃! severity, d ∈ l.reported severity
  /-- As often as an entry is there, it is reported. -/
  once : (l.reported .info ++ l.reported .warning ++ l.reported .error).Perm l.entries.toList
  sizes : (l.messages .info).length + (l.messages .warning).length +
    (l.messages .error).length = l.size

theorem reports (l : MessageLog) : l.Reports := by
  refine { inOrder := l.reported_eq_filter, under := ?_, once := l.reported_perm, sizes := ?_ }
  · intro d hd
    refine ⟨d.severity, mem_reported_iff.2 ⟨hd.val, rfl⟩, ?_⟩
    intro severity h
    exact (mem_reported_iff.1 h).2.symm
  · have hlength := l.reported_perm.length_eq
    simp only [reported, List.length_append, List.length_map] at hlength
    exact hlength

/-! ## One call after another -/

/-- A call adds what it writes at the end, and what it takes out it takes from the front. -/
theorem serve_conserves (l : MessageLog) (call : LogCall) :
    (l.serve call).1.toList.flatMap (·.taken) ++ (l.serve call).2.entries.toList =
      l.entries.toList ++ call.written := by
  cases call with
  | push | extend | messages | drain | size | isEmpty =>
    simp [serve, drain, LogCall.written, LogAnswer.taken]

theorem serveAll_cons (l : MessageLog) (client : Nat) (call : LogCall)
    (rest : List (Nat × LogCall)) :
    l.serveAll ((client, call) :: rest) =
      ((l.serve call).1.toList.map (client, ·) ++ ((l.serve call).2.serveAll rest).1,
        ((l.serve call).2.serveAll rest).2) := rfl

theorem serveAll_append (l : MessageLog) (first second : List (Nat × LogCall)) :
    l.serveAll (first ++ second) =
      ((l.serveAll first).1 ++ ((l.serveAll first).2.serveAll second).1,
        ((l.serveAll first).2.serveAll second).2) := by
  induction first generalizing l with
  | nil => rfl
  | cons call rest ih =>
    obtain ⟨client, call⟩ := call
    rw [List.cons_append, serveAll_cons, serveAll_cons, ih, List.append_assoc]

theorem serveAll_concat (l : MessageLog) (calls : List (Nat × LogCall)) (client : Nat)
    (call : LogCall) :
    l.serveAll (calls ++ [(client, call)]) =
      ((l.serveAll calls).1 ++ ((l.serveAll calls).2.serve call).1.toList.map (client, ·),
        ((l.serveAll calls).2.serve call).2) := by
  rw [serveAll_append, serveAll_cons]
  simp [serveAll]

/-- What drains give out, and then what is left, is what was there, and then what was written. -/
theorem serveAll_conserves (l : MessageLog) (calls : List (Nat × LogCall)) :
    (l.serveAll calls).1.flatMap (·.2.taken) ++ (l.serveAll calls).2.entries.toList =
      l.entries.toList ++ calls.flatMap (·.2.written) := by
  induction calls generalizing l with
  | nil => simp [serveAll]
  | cons call rest ih =>
    obtain ⟨client, call⟩ := call
    rw [serveAll_cons, List.flatMap_append, List.flatMap_map, List.append_assoc, ih,
      ← List.append_assoc, serve_conserves, List.append_assoc, List.flatMap_cons]

/-- A drain leaves nothing behind. -/
theorem entries_serveAll (calls : List (Nat × LogCall)) :
    (({} : MessageLog).serveAll calls).2.entries.toList =
      (calls.rtakeWhile (·.2 ≠ .drain)).flatMap (·.2.written) := by
  induction calls using List.reverseRecOn with
  | nil => rfl
  | append_singleton calls call ih =>
    obtain ⟨client, call⟩ := call
    rw [serveAll_concat, List.rtakeWhile_concat]
    cases call with
    | drain => rfl
    | push | extend | messages | size | isEmpty =>
      simp [serve, ih, LogCall.written]

/-- A batch that is passed on one diagnostic at a time. -/
theorem serveAll_pushes (l : MessageLog) (client : Nat) (ds : List Diagnostic) :
    l.serveAll (ds.map fun d => (client, .push d)) = ([], l.pushEach ds) := by
  induction ds generalizing l with
  | nil => rfl
  | cons d ds ih =>
    rw [List.map_cons, serveAll_cons]
    simp only [serve, ih, pushEach, List.foldl_cons, Option.toList_none, List.map_nil,
      List.nil_append]

/-- For a client alone, it makes no difference whether its sink takes batches. -/
theorem serveAll_passedOn (l : MessageLog) (client : Nat) (takesBatches : Bool)
    (calls : List LogCall) :
    l.serveAll ((calls.flatMap (·.passedOn takesBatches)).map (client, ·)) =
      l.serveAll (calls.map (client, ·)) := by
  induction calls generalizing l with
  | nil => rfl
  | cons call rest ih =>
    have hcall : l.serveAll ((call.passedOn takesBatches).map (client, ·)) =
        l.serveAll [(client, call)] := by
      -- only a batch is passed on as several calls, and none of them is answered
      cases call with
      | extend ds =>
        cases takesBatches with
        | true => rfl
        | false =>
          show l.serveAll ((ds.map LogCall.push).map (client, ·)) = _
          rw [List.map_map]
          exact (l.serveAll_pushes client ds).trans (by rw [pushEach_eq_extend]; rfl)
      | push | messages | drain | size | isEmpty => rfl
    rw [List.flatMap_cons, List.map_append, serveAll_append, hcall, ih]
    simp [serveAll]

end MessageLog

namespace SharedLog

variable {programs : Nat → List LogCall} {s t : SharedLog} {action : Action}

/-- The calls of one client among those of all. -/
def callsOf (client : Nat) (calls : List (Nat × LogCall)) : List LogCall :=
  (calls.filter (·.1 = client)).map (·.2)

/-- One client calls the log, and nobody else does. -/
def solely (client : Nat) (calls : List LogCall) : Nat → List LogCall :=
  fun i => if i = client then calls else []

theorem callsOf_concat (client i : Nat) (calls : List (Nat × LogCall)) (call : LogCall) :
    callsOf i (calls ++ [(client, call)]) =
      callsOf i calls ++ if client = i then [call] else [] := by
  unfold callsOf
  rw [List.filter_append, List.map_append]
  by_cases h : client = i <;> simp [h]

/-! ## One step -/

/-- All that one action can do. -/
inductive Step (s : SharedLog) : Action → SharedLog → Prop
  | take {client : Nat} {call : LogCall} {rest : List LogCall} : s.hold = none →
      s.ahead client = call :: rest → Step s (.take client) (s.takenBy client call rest)
  | write {client : Nat} {call : LogCall} {d : Diagnostic} {ds : List Diagnostic} :
      s.hold = some ⟨client, call, d :: ds⟩ →
      Step s .write { s with log := s.log.push d, hold := some ⟨client, call, ds⟩ }
  | release {client : Nat} {call : LogCall} : s.hold = some ⟨client, call, []⟩ →
      Step s .release (s.concluded client call)

/-- The list of steps is complete. -/
theorem Step.of_step? (h : s.step? action = some t) : Step s action t := by
  cases action with
  | take client =>
    dsimp only [step?] at h
    split at h
    · next call rest hhold hahead => cases h; exact .take hhold hahead
    · cases h
  | write =>
    dsimp only [step?] at h
    split at h
    · next client call d ds hhold => cases h; exact .write hhold
    · cases h
  | release =>
    dsimp only [step?] at h
    split at h
    · next client call hhold => cases h; exact .release hhold
    · cases h

/-- How far the calls have got that took the lock. -/
inductive Served (s : SharedLog) : Prop
  /-- All of them are over. -/
  | free : s.hold = none → ({} : MessageLog).serveAll s.order = (s.answers, s.log) → Served s
  /-- All but the last are over, and the last has written the first part of what it writes. -/
  | held {before : List (Nat × LogCall)} {found : MessageLog} {client : Nat} {call : LogCall}
      {done unwritten : List Diagnostic} : s.hold = some ⟨client, call, unwritten⟩ →
      s.order = before ++ [(client, call)] →
      ({} : MessageLog).serveAll before = (s.answers, found) → s.log = found.extend done →
      done ++ unwritten = call.written → Served s

theorem Served.of_free (hs : s.Served) (h : s.hold = none) :
    ({} : MessageLog).serveAll s.order = (s.answers, s.log) := by
  cases hs with
  | free _ hserved => exact hserved
  | held hhold => rw [h] at hhold; cases hhold

theorem Served.of_held (hs : s.Served) {client : Nat} {call : LogCall}
    {unwritten : List Diagnostic} (h : s.hold = some ⟨client, call, unwritten⟩) :
    ∃ before found done, s.order = before ++ [(client, call)] ∧
      ({} : MessageLog).serveAll before = (s.answers, found) ∧ s.log = found.extend done ∧
      done ++ unwritten = call.written := by
  cases hs with
  | free hfree => rw [h] at hfree; cases hfree
  | held hhold horder hserved hlog hwritten =>
    rw [h] at hhold
    cases hhold
    exact ⟨_, _, _, horder, hserved, hlog, hwritten⟩

theorem Served.step (hs : s.Served) (h : Step s action t) : t.Served := by
  cases h with
  | take hfree => exact .held rfl rfl (hs.of_free hfree) s.log.extend_nil.symm rfl
  | @write client call d ds hhold =>
    obtain ⟨before, found, done, horder, hserved, hlog, hwritten⟩ := hs.of_held hhold
    have hlog' : s.log.push d = found.extend (done ++ [d]) := by
      rw [hlog, MessageLog.push_extend]
    have hwritten' : done ++ [d] ++ ds = call.written := by
      rw [← hwritten, List.append_assoc, List.singleton_append]
    exact .held rfl horder hserved hlog' hwritten'
  | @release client call hhold =>
    obtain ⟨before, found, done, horder, hserved, hlog, hwritten⟩ := hs.of_held hhold
    -- the call has written everything, so it ends like one that was served at a stroke
    have hconclude : s.log.conclude call = found.serve call := by
      rw [hlog, ← found.conclude_extend_written call, ← hwritten, List.append_nil]
    refine .free rfl ?_
    show ({} : MessageLog).serveAll s.order =
      (s.answers ++ (s.log.conclude call).1.toList.map (client, ·), (s.log.conclude call).2)
    rw [horder, MessageLog.serveAll_concat, hserved, hconclude]

/-- Each client's calls take the lock in the order in which the client makes them. -/
theorem Step.inTurn (h : Step s action t)
    (hs : ∀ i, programs i = callsOf i s.order ++ s.ahead i) (i : Nat) :
    programs i = callsOf i t.order ++ t.ahead i := by
  cases h with
  | @take client call rest hhold hahead =>
    show programs i =
      callsOf i (s.order ++ [(client, call)]) ++ if i = client then rest else s.ahead i
    rw [hs i, callsOf_concat]
    by_cases hi : i = client
    · subst hi
      simp [hahead]
    · simp [hi, Ne.symm hi]
  | write | release => exact hs i

theorem inTurn_of_steps? {actions : List Action} (h : (start programs).steps? actions = some s)
    (i : Nat) : programs i = callsOf i s.order ++ s.ahead i := by
  refine performs_steps?.invariant (motive := fun s => ∀ i, programs i = callsOf i s.order ++ s.ahead i)
    ?_ h (fun _ => rfl) i
  intro s t a hs hstep
  exact (Step.of_step? hstep).inTurn hs

theorem served_of_steps? {actions : List Action} (h : (start programs).steps? actions = some s) :
    s.Served :=
  performs_steps?.invariant (fun hs hstep => hs.step (.of_step? hstep)) h (.free rfl rfl)

/-! ## What the clients wrote, and what they are told -/

theorem unwritten_of_free (h : s.hold = none) : s.unwritten = [] := by
  unfold unwritten
  rw [h]
  rfl

theorem Served.conserved (hs : s.Served) :
    s.takenOut ++ s.log.entries.toList ++ s.unwritten = s.order.flatMap (·.2.written) := by
  cases hhold : s.hold with
  | none =>
    have hall := MessageLog.serveAll_conserves {} s.order
    rw [hs.of_free hhold] at hall
    rw [unwritten_of_free hhold, List.append_nil]
    exact hall
  | some hold =>
    obtain ⟨client, call, unwritten⟩ := hold
    obtain ⟨before, found, done, horder, hserved, hlog, hwritten⟩ := hs.of_held hhold
    have hbefore : s.takenOut ++ found.entries.toList = before.flatMap (·.2.written) := by
      have hall := MessageLog.serveAll_conserves {} before
      rw [hserved] at hall
      exact hall
    have hentries : s.log.entries.toList = found.entries.toList ++ done := by
      rw [hlog, MessageLog.entries_extend, Array.toList_appendList]
    have hunwritten : s.unwritten = unwritten := by
      unfold SharedLog.unwritten
      rw [hhold]
      rfl
    calc s.takenOut ++ s.log.entries.toList ++ s.unwritten
      _ = (s.takenOut ++ found.entries.toList) ++ (done ++ unwritten) := by
          rw [hentries, hunwritten]
          simp only [List.append_assoc]
      _ = before.flatMap (·.2.written) ++ call.written := by rw [hbefore, hwritten]
      _ = s.order.flatMap (·.2.written) := by rw [horder]; simp

/-! ## Nobody is kept waiting -/

/-- A call under way can go on until it is over. -/
theorem exists_free (s : SharedLog) : ∃ actions t, s.steps? actions = some t ∧
    t.hold = none ∧ t.ahead = s.ahead ∧ t.order = s.order := by
  cases hhold : s.hold with
  | none => exact ⟨[], s, rfl, hhold, rfl, rfl⟩
  | some hold =>
    obtain ⟨client, call, unwritten⟩ := hold
    -- along what the call has still to write
    induction unwritten generalizing s with
    | nil =>
      refine ⟨[.release], s.concluded client call, ?_, rfl, rfl, rfl⟩
      simp [steps?, step?, hhold]
    | cons d ds ih =>
      obtain ⟨actions, t, hsteps, hfree, hahead, horder⟩ :=
        ih { s with log := s.log.push d, hold := some ⟨client, call, ds⟩ } rfl
      refine ⟨.write :: actions, t, ?_, hfree, hahead, horder⟩
      simpa [steps?, step?, hhold] using hsteps

/-- Whichever client has a call to make can be the next whose call goes through. -/
theorem exists_next {client : Nat} {call : LogCall} {rest : List LogCall}
    (h : s.ahead client = call :: rest) : ∃ actions t, s.steps? actions = some t ∧
      t.hold = none ∧ t.order = s.order ++ [(client, call)] := by
  -- a call under way ends first, then the client takes the lock and its call ends
  obtain ⟨first, u, hfirst, hfree, hahead, horder⟩ := s.exists_free
  obtain ⟨last, t, hlast, hover, -, hserved⟩ := (u.takenBy client call rest).exists_free
  have htake : u.step? (.take client) = some (u.takenBy client call rest) := by
    simp [step?, hfree, hahead, h]
  refine ⟨first ++ .take client :: last, t, ?_, hover, ?_⟩
  · rw [performs_steps?.append, hfirst, Option.bind_some, steps?, htake, Option.bind_some, hlast]
  · rw [hserved]
    show u.order ++ _ = _
    rw [horder]

/-! ## A client alone -/

theorem eq_map_callsOf {client : Nat} {calls : List (Nat × LogCall)}
    (h : ∀ i, i ≠ client → callsOf i calls = []) :
    calls = (callsOf client calls).map (client, ·) := by
  have hall : ∀ entry ∈ calls, entry.1 = client := by
    intro entry hentry
    by_contra hne
    have hmem : entry.2 ∈ callsOf entry.1 calls :=
      List.mem_map_of_mem (List.mem_filter.2 ⟨hentry, by simp⟩)
    rw [h entry.1 hne] at hmem
    cases hmem
  unfold callsOf
  rw [List.filter_eq_self.2 (by simpa using hall), List.map_map]
  exact ((List.map_congr_left fun entry hentry => by rw [← hall entry hentry]; rfl).trans
    (List.map_id _)).symm

theorem order_of_solely {actions : List Action} {client : Nat} {calls : List LogCall}
    (h : (start (solely client calls)).steps? actions = some s) (hdone : s.ahead client = []) :
    s.order = calls.map (client, ·) := by
  have hturn := inTurn_of_steps? h
  have hothers : ∀ i, i ≠ client → callsOf i s.order = [] := by
    intro i hi
    have hnothing : solely client calls i = [] := if_neg hi
    rw [hturn i, List.append_eq_nil_iff] at hnothing
    exact hnothing.1
  have hown : callsOf client s.order = calls := by
    have hcalls := hturn client
    rw [hdone, List.append_nil] at hcalls
    exact hcalls.symm.trans (if_pos rfl)
  rw [eq_map_callsOf hothers, hown]

/-- What a shared log makes of the calls of its clients. -/
structure Conserves (programs : Nat → List LogCall) (s : SharedLog) : Prop where
  /-- Each client's calls take the lock in the order in which the client makes them. -/
  inTurn (client : Nat) : programs client = callsOf client s.order ++ s.ahead client
  /-- Whichever client has a call to make can be the next whose call goes through. -/
  anyNext (client : Nat) (call : LogCall) (rest : List LogCall) :
    s.ahead client = call :: rest → ∃ actions t, s.steps? actions = some t ∧
      t.hold = none ∧ t.order = s.order ++ [(client, call)]
  /-- What drains have given out, what is present, and what the call under way has still to write
  is what was to be written by the calls, in the order in which they took the lock. -/
  conserved : s.takenOut ++ s.log.entries.toList ++ s.unwritten =
    s.order.flatMap (·.2.written)
  /-- A batch stands there in one piece. -/
  inOnePiece (before after : List (Nat × LogCall)) (client : Nat) (ds : List Diagnostic) :
    s.order = before ++ (client, .extend ds) :: after →
      s.takenOut ++ s.log.entries.toList ++ s.unwritten =
        before.flatMap (·.2.written) ++ ds ++ after.flatMap (·.2.written)
  /-- With the lock free there is nothing still to be written, and the answers and the log are
  those of the calls made one after the other. -/
  oneByOne : s.hold = none → s.unwritten = [] ∧
    ({} : MessageLog).serveAll s.order = (s.answers, s.log)
  /-- What is present then is what was written since the last drain. -/
  present : s.hold = none → s.log.entries.toList =
    (s.order.rtakeWhile (·.2 ≠ .drain)).flatMap (·.2.written)
  /-- Every entry is reported under its severity alone. -/
  reports : s.log.Reports
  /-- A client that is alone finds the same log in the end, and is given the same answers, whether
  its sink takes batches or passes them on one diagnostic at a time. -/
  alone (client : Nat) (takesBatches : Bool) (calls : List LogCall) :
    programs = solely client (calls.flatMap (·.passedOn takesBatches)) →
      s.hold = none → s.ahead client = [] →
        (s.answers, s.log) = ({} : MessageLog).serveAll (calls.map (client, ·))

/-- Whatever clients ask of a log at the same time, nothing that they write is lost, doubled or torn
apart. -/
theorem shared_log_conserves {actions : List Action}
    (h : (start programs).steps? actions = some s) : Conserves programs s := by
  have hserved := served_of_steps? h
  refine
    { inTurn := inTurn_of_steps? h, anyNext := fun _ _ _ => exists_next
      conserved := hserved.conserved, inOnePiece := ?_, oneByOne := ?_, present := ?_
      reports := s.log.reports, alone := ?_ }
  · intro before after client ds horder
    rw [hserved.conserved, horder, List.flatMap_append, List.flatMap_cons, List.append_assoc]
    rfl
  · intro hfree
    exact ⟨unwritten_of_free hfree, hserved.of_free hfree⟩
  · intro hfree
    rw [← MessageLog.entries_serveAll, hserved.of_free hfree]
  · intro client takesBatches calls hprograms hfree hdone
    subst hprograms
    rw [← MessageLog.serveAll_passedOn {} client takesBatches calls, ← order_of_solely h hdone,
      hserved.of_free hfree]

/-- The second client gets in between the batch of the first and its drain. -/
def contested : Nat → List LogCall
  | 0 => [.extend [.error "a", ⟨.warning, "b"⟩], .drain]
  | 1 => [.push ⟨.info, "c"⟩, .extend [.error "d", .error "e"]]
  | _ => []

/-- In the end, the second client is in the midst of its batch. -/
def contest : List Action :=
  [.take 0, .write, .write, .release, .take 1, .write, .release, .take 0, .release, .take 1, .write]

/-- A client by itself, whose sink does not take batches. -/
def uncontested : List LogCall := [.extend [.error "a", .error "b"], .size, .drain]

/-- The client by itself, to the end of its calls. -/
def uncontest : List Action :=
  [.take 0, .write, .release, .take 0, .write, .release, .take 0, .release, .take 0, .release]

theorem shared_log_conserves_contested :
    (∃ s, (start contested).steps? contest = some s ∧
      s.answers = [(0, .drained [.error "a", ⟨.warning, "b"⟩, ⟨.info, "c"⟩])] ∧
      s.log.entries = #[.error "d"] ∧ s.unwritten = [.error "e"] ∧ Conserves contested s) ∧
    ∃ s, (start (solely 0 (uncontested.flatMap (·.passedOn false)))).steps? uncontest = some s ∧
      s.hold = none ∧ s.ahead 0 = [] ∧
      s.answers = [(0, .size 2), (0, .drained [.error "a", .error "b"])] ∧
      (s.answers, s.log) = ({} : MessageLog).serveAll (uncontested.map (0, ·)) := by
  have hcontest : ((start contested).steps? contest).map
      (fun s => (s.answers, s.log.entries, s.unwritten)) =
      some ([(0, .drained [.error "a", ⟨.warning, "b"⟩, ⟨.info, "c"⟩])], #[.error "d"],
        [.error "e"]) := rfl
  have huncontest : ((start (solely 0 (uncontested.flatMap (·.passedOn false)))).steps?
      uncontest).map (fun s => (s.hold, s.ahead 0, s.answers)) =
      some (none, [], [(0, .size 2), (0, .drained [.error "a", .error "b"])]) := rfl
  obtain ⟨s, hs, hseen⟩ := Option.map_eq_some_iff.1 hcontest
  obtain ⟨t, ht, hend⟩ := Option.map_eq_some_iff.1 huncontest
  obtain ⟨hanswers, hentries, hunwritten⟩ : _ ∧ _ ∧ _ := by
    simpa only [Prod.mk.injEq] using hseen
  obtain ⟨hfree, hdone, htold⟩ : _ ∧ _ ∧ _ := by simpa only [Prod.mk.injEq] using hend
  have halone := (shared_log_conserves ht).alone 0 false uncontested rfl hfree hdone
  exact ⟨⟨s, hs, hanswers, hentries, hunwritten, shared_log_conserves hs⟩,
    ⟨t, ht, hfree, hdone, htold, halone⟩⟩

/-- A batch that is passed on one diagnostic at a time, and the push of another client. -/
def scattered : Nat → List LogCall
  | 0 => LogCall.passedOn false (.extend [.error "a", .error "b"])
  | 1 => [.push (.error "c")]
  | _ => []

/-- With two clients it makes a difference whether a sink takes batches. -/
example : ((start scattered).steps? [.take 0, .write, .release, .take 1, .write, .release,
      .take 0, .write, .release]).map (·.log.entries) =
    some #[.error "a", .error "c", .error "b"] := rfl

end SharedLog

end CompileWatch
