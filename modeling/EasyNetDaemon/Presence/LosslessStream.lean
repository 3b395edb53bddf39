import EasyNetDaemon.Presence.StreamDelivery
import Mathlib.Data.List.Nodup
import Mathlib.Data.List.Perm.Basic

/-!
# Lossless streams

The caller of a lossless stream receives the accepted events in order, then the terminal event, then
the end of the stream (`Lossless`), as long as an entry is taken out of the table at a moment when
no delivery holds a sender of it and, for a cancellation, when the channel has room (`Orderly`). A
cancellation of a stream whose channel is full loses the terminal event, and a delivery that took
its sender before the entry was taken out puts its chunk behind the terminal event.
-/

namespace EasyNetDaemon.Presence

open Library

variable {U Receipt Failure : Type}

namespace StreamCall

/-- The events that deliveries have handed over, in order. -/
def accepted (call : StreamCall U Receipt Failure) : List (DispatchStreamEvent Receipt Failure) :=
  (call.outcomes.filter fun o => o.2 == .delivered).map Prod.fst

/-- What the caller of a lossless stream can rely on. -/
structure Lossless (call : StreamCall U Receipt Failure) : Prop where
  /-- It receives what was accepted, in order. -/
  fifo : call.received ++ call.channel.queue = call.accepted
  /-- That is data and at most one terminal event, which is the last one and the one with which the
  entry was taken out. -/
  shape : ∃ data : List (StreamData Receipt), call.accepted = data.map .data ∨
    ∃ result, call.closing = some result ∧ call.accepted = data.map .data ++ [.terminal result]
  /-- The stream ends after everything, with the terminal event last. -/
  atEnd : call.ended = true → ∃ (data : List (StreamData Receipt)) (result : _),
    call.closing = some result ∧ call.received = data.map .data ++ [.terminal result] ∧
      call.received = call.accepted
  /-- A caller that finds nothing waits for the target, or for a delivery that can go on. -/
  live : call.ended = false → call.channel.queue = [] →
    call.inTable = true ∨ call.recv.isSome = true ∨
      ∃ d ∈ call.deliveries, (call.proceed d.task).isSome = true

/-! ## Deliveries by their tasks -/

variable {task : Nat}

section Tasks

variable {l : List (Delivery Receipt Failure)} {d : Delivery Receipt Failure}

/-- A list around the delivery of a task. -/
theorem exists_split_of_find? (hnodup : (l.map Delivery.task).Nodup)
    (h : l.find? (fun d => d.task == task) = some d) :
    ∃ l₁ l₂, l = l₁ ++ d :: l₂ ∧ d.task = task ∧
      l.filter (fun d' => d'.task != d.task) = l₁ ++ l₂ ∧
      ∀ f : Delivery Receipt Failure → Delivery Receipt Failure,
        l.map (fun d' => if d'.task = d.task then f d' else d') = l₁ ++ f d :: l₂ := by
  obtain ⟨hd, l₁, l₂, rfl, hfirst⟩ := List.find?_eq_some_iff_append.1 h
  rw [List.map_append, List.map_cons, List.nodup_append', List.nodup_cons] at hnodup
  obtain ⟨-, ⟨hlater, -⟩, hapart⟩ := hnodup
  have h₁ : ∀ d' ∈ l₁, d'.task ≠ d.task := by
    intro d' hd' habs
    exact hapart (List.mem_map_of_mem hd') (by simp [habs])
  have h₂ : ∀ d' ∈ l₂, d'.task ≠ d.task := by
    intro d' hd' habs
    exact hlater (habs ▸ List.mem_map_of_mem hd')
  refine ⟨l₁, l₂, rfl, by simpa using hd, ?_, ?_⟩
  · rw [List.filter_append, List.filter_cons_of_neg (by simp)]
    rw [List.filter_eq_self.2 (by simpa using h₁), List.filter_eq_self.2 (by simpa using h₂)]
  · intro f
    rw [List.map_append, List.map_cons, if_pos rfl]
    congr 1
    · exact (List.map_congr_left fun d' hd' => if_neg (h₁ d' hd')).trans (List.map_id' l₁)
    · congr 1
      exact (List.map_congr_left fun d' hd' => if_neg (h₂ d' hd')).trans (List.map_id' l₂)

theorem find?_task (hnodup : (l.map Delivery.task).Nodup) (hd : d ∈ l) :
    l.find? (fun d' => d'.task == d.task) = some d := by
  obtain ⟨d', hd'⟩ := Option.isSome_iff_exists.1
    (List.find?_isSome.2 ⟨d, hd, beq_self_eq_true d.task⟩ :
      (l.find? fun d' => d'.task == d.task).isSome = true)
  have htask : d'.task = d.task := by simpa using List.find?_some hd'
  rw [hd', List.inj_on_of_nodup_map hnodup (List.mem_of_find?_eq_some hd') hd htask]

/-- The tasks in line. -/
def lineTasks (l : List (Delivery Receipt Failure)) : List Nat :=
  (l.filter fun d => d.stage == .inLine).map Delivery.task

theorem lineTasks_append (l l' : List (Delivery Receipt Failure)) :
    lineTasks (l ++ l') = lineTasks l ++ lineTasks l' := by
  rw [lineTasks, List.filter_append, List.map_append]
  rfl

theorem lineTasks_cons_sending (h : d.stage = .sending) : lineTasks (d :: l) = lineTasks l := by
  rw [lineTasks, List.filter_cons_of_neg (by simp [h])]
  rfl

theorem lineTasks_cons_inLine (h : d.stage = .inLine) :
    lineTasks (d :: l) = d.task :: lineTasks l := by
  rw [lineTasks, List.filter_cons_of_pos (by simp [h])]
  rfl

end Tasks

/-! ## The invariant -/

/-- How far a stream has come: its entry is in the table and only data was accepted, or it was taken
out and its terminal event was accepted or is about to be. -/
def Progress (call : StreamCall U Receipt Failure) : Prop :=
  ∃ data : List (StreamData Receipt),
    (call.inTable = true ∧ call.accepted = data.map .data ∧ call.closing = none ∧
        ∀ d ∈ call.deliveries, ∃ x, d.kind = .data x) ∨
      call.inTable = false ∧ ∃ result, call.closing = some result ∧
        (call.deliveries = [] ∧ call.accepted = data.map .data ++ [.terminal result] ∨
          call.accepted = data.map .data ∧ ∃ d, call.deliveries = [d] ∧
            (d.kind = .terminal result ∨
              d.kind = .cancel result ∧ d.stage = .sending ∧
                call.channel.taken < streamChannelCapacity))

/-- What holds of a lossless stream whose caller keeps its handle. -/
structure Sound (call : StreamCall U Receipt Failure) : Prop where
  tasks : (call.deliveries.map Delivery.task).Nodup
  fresh : ∀ d ∈ call.deliveries, d.task < call.nextTask
  fair : call.channel.Fair streamChannelCapacity
  line : (call.channel.granted ++ call.channel.waiting).Perm (lineTasks call.deliveries)
  fifo : call.received ++ call.channel.queue = call.accepted
  progress : call.Progress
  atEnd : call.ended = true →
    call.inTable = false ∧ call.deliveries = [] ∧ call.channel.queue = []

variable {call call' : StreamCall U Receipt Failure}

theorem accepted_settle_delivered (d : Delivery Receipt Failure) :
    (call.settle d .delivered).accepted = call.accepted ++ [d.kind.event] := by
  simp [accepted, settle]

namespace Sound

variable (h : call.Sound)

include h

theorem noEntry (event : DispatchStreamEvent Receipt Failure) : (call.noEntry event).Sound := by
  have hsame : (call.noEntry event).accepted = call.accepted := by
    simp [accepted, StreamCall.noEntry]
  refine ⟨h.tasks, h.fresh, h.fair, h.line, ?_, ?_, h.atEnd⟩
  · rw [hsame]
    exact h.fifo
  · unfold Progress
    rw [hsame]
    exact h.progress

/-- A delivery that starts to hold a sender, as far as tasks and the line are concerned. -/
theorem hold_tasks (kind : DeliveryKind Receipt Failure) :
    ((call.hold kind).deliveries.map Delivery.task).Nodup ∧
      (∀ d ∈ (call.hold kind).deliveries, d.task < (call.hold kind).nextTask) ∧
      lineTasks (call.hold kind).deliveries = lineTasks call.deliveries := by
  refine ⟨?_, ?_, ?_⟩
  · simp only [hold, List.map_append, List.map_cons, List.map_nil]
    refine List.nodup_append'.2 ⟨h.tasks, List.nodup_singleton _, ?_⟩
    intro task htask hnew
    obtain ⟨d, hd, rfl⟩ := List.mem_map.1 htask
    exact absurd (List.mem_singleton.1 hnew) (Nat.ne_of_lt (h.fresh d hd))
  · intro d hd
    rcases List.mem_append.1 hd with hd | hd
    · exact Nat.lt_succ_of_lt (h.fresh d hd)
    · rw [List.mem_singleton.1 hd]
      exact Nat.lt_succ_self _
  · simp only [hold]
    rw [lineTasks_append, lineTasks_cons_sending rfl]
    exact List.append_nil _

theorem not_over (htable : call.inTable = true) : call.ended = false := by
  cases hended : call.ended with
  | false => rfl
  | true => rw [(h.atEnd hended).1] at htable; cases htable

theorem deliver (data : StreamData Receipt) : (call.deliver data).Sound := by
  unfold StreamCall.deliver
  split
  · rename_i htable
    obtain ⟨htasks, hfresh, hline⟩ := h.hold_tasks (.data data)
    refine ⟨htasks, hfresh, h.fair, ?_, h.fifo, ?_, ?_⟩
    · rw [hline]
      exact h.line
    · obtain ⟨past, ⟨-, hacc, hclosing, hdata⟩ | ⟨hgone, -⟩⟩ := h.progress
      · refine ⟨past, Or.inl ⟨htable, hacc, hclosing, ?_⟩⟩
        intro d hd
        rcases List.mem_append.1 hd with hd | hd
        · exact hdata d hd
        · rw [List.mem_singleton.1 hd]
          exact ⟨data, rfl⟩
      · rw [hgone] at htable
        cases htable
    · intro hended
      have habs : call.ended = true := hended
      rw [h.not_over htable] at habs
      cases habs
  · exact h.noEntry _

/-- Nothing is left to do when the stream is over. -/
theorem not_over_of_find? {d : Delivery Receipt Failure}
    (hd : call.deliveries.find? (fun d => d.task == task) = some d) : call.ended = false := by
  cases hended : call.ended with
  | false => rfl
  | true =>
    rw [(h.atEnd hended).2.1] at hd
    cases hd

/-- A delivery hands its event over. -/
theorem handOver {d : Delivery Receipt Failure}
    (hd : call.deliveries.find? (fun d => d.task == task) = some d)
    {channel : Channel (DispatchStreamEvent Receipt Failure) Nat}
    (hqueue : channel.queue = call.channel.queue ++ [d.kind.event])
    (hfair : channel.Fair streamChannelCapacity)
    (hline : ∀ l₁ l₂, call.deliveries = l₁ ++ d :: l₂ →
      (channel.granted ++ channel.waiting).Perm (lineTasks (l₁ ++ l₂))) :
    { call.settle d .delivered with channel }.Sound := by
  obtain ⟨l₁, l₂, hsplit, -, hfilter, -⟩ := exists_split_of_find? h.tasks hd
  have hdeliveries : (call.settle d .delivered).deliveries = l₁ ++ l₂ := hfilter
  have hacc : (call.settle d .delivered).accepted = call.accepted ++ [d.kind.event] :=
    accepted_settle_delivered d
  have htasks := h.tasks
  have hfresh := h.fresh
  rw [hsplit] at htasks hfresh
  refine ⟨?_, ?_, hfair, ?_, ?_, ?_, ?_⟩
  · show ((call.settle d .delivered).deliveries.map Delivery.task).Nodup
    rw [hdeliveries]
    exact htasks.sublist (List.Sublist.map _ ((List.sublist_cons_self d l₂).append_left l₁))
  · show ∀ d' ∈ (call.settle d .delivered).deliveries, _
    rw [hdeliveries]
    intro d' hd'
    exact hfresh d' (List.Sublist.subset ((List.sublist_cons_self d l₂).append_left l₁) hd')
  · show (channel.granted ++ channel.waiting).Perm (lineTasks (call.settle d .delivered).deliveries)
    rw [hdeliveries]
    exact hline l₁ l₂ hsplit
  · show call.received ++ channel.queue = (call.settle d .delivered).accepted
    rw [hacc, hqueue, ← List.append_assoc, h.fifo]
  · unfold Progress
    obtain ⟨data, ⟨htable, hpast, hclosing, hdata⟩ | ⟨hgone, result, hclosing, hlast⟩⟩ := h.progress
    · obtain ⟨x, hx⟩ := hdata d (by rw [hsplit]; simp)
      refine ⟨data ++ [x], Or.inl ⟨htable, ?_, hclosing, ?_⟩⟩
      · show (call.settle d .delivered).accepted = _
        rw [hacc, hpast, hx, List.map_append]
        rfl
      · show ∀ d' ∈ (call.settle d .delivered).deliveries, _
        rw [hdeliveries]
        intro d' hd'
        refine hdata d' ?_
        rw [hsplit]
        exact List.Sublist.subset ((List.sublist_cons_self d l₂).append_left l₁) hd'
    · refine ⟨data, Or.inr ⟨hgone, result, hclosing, Or.inl ?_⟩⟩
      rcases hlast with ⟨hnone, -⟩ | ⟨hpast, d', hd', hkind⟩
      · rw [hnone] at hsplit
        simp at hsplit
      · -- the only delivery is the one that brings the terminal event
        rw [hd'] at hsplit
        obtain ⟨rfl, rfl, rfl⟩ : l₁ = [] ∧ d' = d ∧ l₂ = [] := by
          cases l₁ with
          | nil => simpa using hsplit
          | cons a l => simp at hsplit
        have hevent : d'.kind.event = .terminal result := by
          rcases hkind with hkind | ⟨hkind, -⟩ <;> rw [hkind] <;> rfl
        refine ⟨hdeliveries, ?_⟩
        show (call.settle d' .delivered).accepted = _
        rw [hacc, hpast, hevent]
  · intro hended
    have habs : call.ended = true := hended
    rw [h.not_over_of_find? hd] at habs
    cases habs

/-- A delivery that was about to send stands in line. -/
theorem standInLine {d : Delivery Receipt Failure}
    (hd : call.deliveries.find? (fun d => d.task == task) = some d) (hstage : d.stage = .sending)
    (hwaits : ∀ result, d.kind ≠ .cancel result)
    (hfull : call.channel.trySend streamChannelCapacity d.kind.event = none) :
    (call.standInLine d).Sound := by
  obtain ⟨l₁, l₂, hsplit, -, -, hmap⟩ := exists_split_of_find? h.tasks hd
  have hset : (call.standInLine d).deliveries = l₁ ++ { d with stage := .inLine } :: l₂ :=
    hmap fun d' => { d' with stage := .inLine }
  have hsame : (l₁ ++ { d with stage := .inLine } :: l₂).map Delivery.task =
      call.deliveries.map Delivery.task := by
    rw [hsplit, List.map_append, List.map_append]
    rfl
  refine ⟨?_, ?_, h.fair.standInLine hfull d.task, ?_, h.fifo, ?_, ?_⟩
  · rw [hset, hsame]
    exact h.tasks
  · rw [hset]
    intro d' hd'
    have htask : d'.task ∈ call.deliveries.map Delivery.task := by
      rw [← hsame]
      exact List.mem_map_of_mem hd'
    obtain ⟨d'', hd'', heq⟩ := List.mem_map.1 htask
    exact heq ▸ h.fresh d'' hd''
  · have hline := h.line
    rw [hsplit, lineTasks_append, lineTasks_cons_sending hstage] at hline
    rw [hset, lineTasks_append, lineTasks_cons_inLine rfl]
    show (call.channel.granted ++ (call.channel.waiting ++ [d.task])).Perm _
    rw [← List.append_assoc]
    exact ((hline.append_right [d.task]).trans (List.perm_append_singleton _ _)).trans
      List.perm_middle.symm
  · obtain ⟨data, ⟨htable, hpast, hclosing, hdata⟩ | ⟨hgone, result, hclosing, hlast⟩⟩ := h.progress
    · refine ⟨data, Or.inl ⟨htable, hpast, hclosing, ?_⟩⟩
      rw [hset]
      intro d' hd'
      rcases List.mem_append.1 hd' with hd' | hd'
      · exact hdata d' (by rw [hsplit]; simp [hd'])
      · rcases List.mem_cons.1 hd' with rfl | hd'
        · exact hdata d (by rw [hsplit]; simp)
        · exact hdata d' (by rw [hsplit]; simp [hd'])
    · refine ⟨data, Or.inr ⟨hgone, result, hclosing, ?_⟩⟩
      rcases hlast with ⟨hnone, -⟩ | ⟨hpast, d', hd', hkind⟩
      · rw [hnone] at hsplit
        simp at hsplit
      · rw [hd'] at hsplit
        obtain ⟨rfl, rfl, rfl⟩ : l₁ = [] ∧ d' = d ∧ l₂ = [] := by
          cases l₁ with
          | nil => simpa using hsplit
          | cons a l => simp at hsplit
        have hterminal : d'.kind = .terminal result :=
          hkind.resolve_right fun hcancel => hwaits result hcancel.1
        exact Or.inr ⟨hpast, _, hset, Or.inl hterminal⟩
  · intro hended
    have habs : call.ended = true := hended
    rw [h.not_over_of_find? hd] at habs
    cases habs

/-- A delivery of a lossless stream goes on. -/
theorem proceed (hpolicy : call.policy = .losslessBackpressure) (hhandle : call.handle = true)
    (hstep : call.proceed task = some call') : call'.Sound := by
  unfold StreamCall.proceed at hstep
  cases hd : call.deliveries.find? (fun d => d.task == task) with
  | none =>
    rw [hd] at hstep
    cases hstep
  | some d =>
    simp only [hd] at hstep
    cases hstage : d.stage with
    | inLine =>
      simp only [hstage, finishSend, hhandle, Bool.not_true, Bool.false_eq_true, if_false] at hstep
      split at hstep
      · rename_i hgranted
        cases hstep
        refine h.handOver hd rfl (h.fair.sendGranted hgranted _) ?_
        intro l₁ l₂ hsplit
        have hline := h.line
        rw [hsplit, lineTasks_append, lineTasks_cons_inLine hstage] at hline
        have herase := (hline.trans List.perm_middle).erase d.task
        rw [List.erase_cons_head, List.erase_append_left _ hgranted, ← lineTasks_append] at herase
        exact herase
      · cases hstep
    | sending =>
      have hsame : ∀ l₁ l₂, call.deliveries = l₁ ++ d :: l₂ →
          (call.channel.granted ++ call.channel.waiting).Perm (lineTasks (l₁ ++ l₂)) := by
        intro l₁ l₂ hsplit
        have hline := h.line
        rw [hsplit, lineTasks_append, lineTasks_cons_sending hstage, ← lineTasks_append] at hline
        exact hline
      have hsent : ∀ channel, call.channel.trySend streamChannelCapacity d.kind.event =
          some channel → { call.settle d .delivered with channel }.Sound := by
        intro channel hsend
        have hfair := h.fair.trySend hsend
        obtain ⟨-, rfl⟩ := Channel.trySend_eq_some_iff.1 hsend
        exact h.handOver hd rfl hfair hsame
      simp only [hstage, Option.some.injEq] at hstep
      subst hstep
      split
      · rename_i hwaits
        unfold startSend
        rw [hhandle]
        cases hsend : call.channel.trySend streamChannelCapacity d.kind.event with
        | some channel => exact hsent channel hsend
        | none =>
          refine h.standInLine hd hstage ?_ hsend
          intro result hkind
          simp [waits, hpolicy, hkind] at hwaits
      · rename_i hwaits
        -- only a cancellation does not wait, and it was made when the channel had room
        cases hkind : d.kind with
        | data x => simp [waits, hpolicy, hkind] at hwaits
        | terminal result => simp [waits, hpolicy, hkind] at hwaits
        | cancel result =>
          have hroom : call.channel.taken < streamChannelCapacity := by
            have hmem := List.mem_of_find?_eq_some hd
            obtain ⟨data, ⟨-, -, -, hdata⟩ | ⟨-, r, -, ⟨hnone, -⟩ | ⟨-, d', hd', hlast⟩⟩⟩ :=
              h.progress
            · obtain ⟨x, hx⟩ := hdata d hmem
              rw [hkind] at hx
              cases hx
            · rw [hnone] at hmem
              cases hmem
            · rw [hd', List.mem_singleton] at hmem
              subst hmem
              rw [hkind] at hlast
              exact (hlast.resolve_left nofun).2.2
          have hsend : call.channel.trySend streamChannelCapacity d.kind.event =
              some { call.channel with queue := call.channel.queue ++ [d.kind.event] } :=
            Channel.trySend_eq_some_iff.2 ⟨hroom, rfl⟩
          have hdone := hsent _ hsend
          rw [hkind] at hsend
          simp only [tryDeliver, hkind, hhandle, Bool.not_true, Bool.false_eq_true, if_false, hsend]
          rw [hkind] at hdone
          exact hdone

theorem recv (hstep : call.recv = some call') : call'.Sound := by
  unfold StreamCall.recv at hstep
  split at hstep
  · cases hstep
  · rename_i hopen
    cases hrecv : call.channel.recv with
    | some p =>
      obtain ⟨event, channel⟩ := p
      simp only [hrecv, Option.some.injEq] at hstep
      subst hstep
      have hfair := h.fair.recv hrecv
      have htaken : channel.taken ≤ call.channel.taken := Channel.taken_recv_le hrecv
      obtain ⟨hqueue, hline⟩ := Channel.recv_eq_some hrecv
      refine ⟨h.tasks, h.fresh, hfair, ?_, ?_, ?_, ?_⟩
      · show (channel.granted ++ channel.waiting).Perm (lineTasks call.deliveries)
        rw [hline]
        exact h.line
      · show call.received ++ [event] ++ channel.queue = call.accepted
        rw [List.append_assoc, List.singleton_append, ← hqueue]
        exact h.fifo
      · obtain ⟨data, hopenCase | ⟨hgone, result, hclosing, hdone | ⟨hpast, d, hd, hkind⟩⟩⟩ :=
          h.progress
        · exact ⟨data, Or.inl hopenCase⟩
        · exact ⟨data, Or.inr ⟨hgone, result, hclosing, Or.inl hdone⟩⟩
        · refine ⟨data, Or.inr ⟨hgone, result, hclosing, Or.inr ⟨hpast, d, hd, ?_⟩⟩⟩
          exact hkind.imp id fun hcancel =>
            ⟨hcancel.1, hcancel.2.1, lt_of_le_of_lt htaken hcancel.2.2⟩
      · intro hended
        have habs : call.ended = true := hended
        simp [habs] at hopen
    | none =>
      simp only [hrecv] at hstep
      split at hstep
      · cases hstep
      · rename_i hidle
        cases hstep
        simp only [Bool.or_eq_true, Bool.not_eq_true', not_or, Bool.not_eq_true,
          Bool.not_eq_false, List.isEmpty_iff] at hidle
        exact ⟨h.tasks, h.fresh, h.fair, h.line, h.fifo, h.progress,
          fun _ => ⟨hidle.1, hidle.2, Channel.queue_of_recv_none hrecv⟩⟩

/-- What the invariant says to the caller. -/
theorem lossless (hhandle : call.handle = true) : call.Lossless where
  fifo := h.fifo
  shape := by
    obtain ⟨data, ⟨-, hpast, -, -⟩ | ⟨-, result, hclosing, ⟨-, hall⟩ | ⟨hpast, -⟩⟩⟩ := h.progress
    · exact ⟨data, Or.inl hpast⟩
    · exact ⟨data, Or.inr ⟨result, hclosing, hall⟩⟩
    · exact ⟨data, Or.inl hpast⟩
  atEnd := by
    intro hended
    obtain ⟨hgone, hidle, hqueue⟩ := h.atEnd hended
    have hall := h.fifo
    rw [hqueue, List.append_nil] at hall
    obtain ⟨data, ⟨htable, -⟩ | ⟨-, result, hclosing, ⟨-, hlast⟩ | ⟨-, d, hd, -⟩⟩⟩ := h.progress
    · rw [hgone] at htable
      cases htable
    · exact ⟨data, result, hclosing, hall.trans hlast, hall⟩
    · rw [hidle] at hd
      cases hd
  live := by
    intro hended hqueue
    have hrecv : call.channel.recv = none := by simp [Channel.recv, hqueue]
    cases htable : call.inTable with
    | true => exact Or.inl rfl
    | false =>
      refine Or.inr ?_
      cases hidle : call.deliveries with
      | nil =>
        refine Or.inl ?_
        simp [StreamCall.recv, hhandle, hended, hrecv, htable, hidle]
      | cons d rest =>
        refine Or.inr ?_
        rw [← hidle]
        -- a delivery in line was granted a place, since the channel is empty
        by_cases hline : lineTasks call.deliveries = []
        · have hd : d ∈ call.deliveries := by rw [hidle]; exact List.mem_cons_self
          refine ⟨d, hd, ?_⟩
          unfold StreamCall.proceed
          rw [find?_task h.tasks hd]
          cases hstage : d.stage with
          | sending => simp [hstage]
          | inLine =>
            have hmem : d.task ∈ lineTasks call.deliveries :=
              List.mem_map_of_mem (List.mem_filter.2 ⟨hd, by simp [hstage]⟩)
            rw [hline] at hmem
            cases hmem
        · have hgranted : call.channel.granted ≠ [] := by
            intro hnone
            have hwaiting : call.channel.waiting ≠ [] := by
              intro hempty
              have hperm := h.line
              rw [hnone, hempty, List.append_nil] at hperm
              exact hline hperm.symm.eq_nil
            exact h.fair.granted_of_queue_nil (by decide) hqueue hwaiting hnone
          obtain ⟨task, htask⟩ := List.exists_mem_of_ne_nil _ hgranted
          have hmem := h.line.mem_iff.1 (List.mem_append_left _ htask)
          obtain ⟨d', hd', rfl⟩ := List.mem_map.1 hmem
          obtain ⟨hd', hstage⟩ := List.mem_filter.1 hd'
          refine ⟨d', hd', ?_⟩
          unfold StreamCall.proceed
          rw [find?_task h.tasks hd']
          simp [beq_iff_eq.1 hstage, finishSend, hhandle, htask]

end Sound

end StreamCall

/-! ## The table -/

/-- The call that a running cancellation comes to next. -/
def StreamTable.nextCancelled (t : StreamTable U Receipt Failure) (k : Nat) :
    Option (StreamCall U Receipt Failure) :=
  t.sweeps[k]?.bind fun sweep => sweep.2.head?.bind fun i => t.calls[i]?

/-- An entry of a lossless stream whose caller waits is taken out when no delivery holds a sender of
it and, by a cancellation, when the channel has room. -/
def StreamTable.Orderly (t : StreamTable U Receipt Failure) : StreamOp U Receipt Failure → Prop
  | .deliverTerminal i _ => ∀ call ∈ t.calls[i]?, call.policy = .losslessBackpressure →
    call.handle = true → call.inTable = true → call.deliveries = []
  | .cancelNext k => ∀ call ∈ t.nextCancelled k, call.policy = .losslessBackpressure →
    call.handle = true → call.inTable = true →
    call.deliveries = [] ∧ call.channel.queue.length < streamChannelCapacity
  | _ => True

instance (t : StreamTable U Receipt Failure) : DecidablePred t.Orderly
  | .deliverTerminal i _ => inferInstanceAs (Decidable (∀ call ∈ t.calls[i]?, _ → _ → _ → _))
  | .cancelNext k => inferInstanceAs (Decidable (∀ call ∈ t.nextCancelled k, _ → _ → _ → _ ∧ _))
  | .register _ _ | .deliver _ _ | .cancelFor _ _ | .proceed _ _ | .recv _ | .dropHandle _ =>
    inferInstanceAs (Decidable True)

namespace StreamTable

variable [DecidableEq U] {fromReason : String → String → Bool → Failure}

end StreamTable

end EasyNetDaemon.Presence
