import EasyNetDaemon.Eal.CallBound

/-!
# The order of the jobs

What the schedule of a compiled mission without loops says about its jobs: each call is in the batch
of its phase (`callIn_of_mem_jobs`), no two calls export the same binding (`noShare_jobs`), batches
come in the order of their phases with the optional calls of a phase last (`before_jobs`), and a
call reads only what calls of smaller phases export (`phase_lt_of_reads`).
-/

namespace EasyNetDaemon.Eal

open Library EasyNetDaemon.Core

/-- The phase of a job. -/
def Job.phase : Job → Nat
  | .batch phaseIdx _ _ => phaseIdx
  | .loop phaseIdx _ => phaseIdx

/-- The top-level calls of a job. -/
def Job.calls : Job → List IrCall
  | .batch _ _ indexed => indexed.map Prod.snd
  | .loop _ _ => []

/-- A step that is a call. -/
def IrStep.topCall : IrStep → Option IrCall
  | .call c => some c
  | .loop _ => none

/-- A mission without loops. -/
def MissionIr.LoopFree (ir : MissionIr) : Prop := ∀ lp, IrStep.loop lp ∉ ir.steps

/-- The call is a step of the phase. -/
def MissionIr.CallIn (ir : MissionIr) (p : Nat) (c : IrCall) : Prop :=
  ∃ k, ir.InPhase p k ∧ ir.steps[k]? = some (.call c)

/-- Two calls are not bound to the same name. -/
def NoShare (c c' : IrCall) : Prop :=
  ∀ b, c.outputBinding = some b → c'.outputBinding ≠ some b

theorem NoShare.symm {c c' : IrCall} (h : NoShare c c') : NoShare c' c :=
  fun b hb hb' => h b hb' hb

/-- A job that comes before another one. -/
def Job.Before (job job' : Job) : Prop :=
  job.phase < job'.phase ∨ job.phase = job'.phase ∧ ∀ c ∈ job'.calls, c.optional = true

/-! ## The calls of the jobs -/

theorem Job.calls_eq (job : Job) : job.calls = job.steps.filterMap IrStep.topCall := by
  cases job with
  | batch phaseIdx many indexed =>
    simp [calls, steps, List.filterMap_map, Function.comp_def, IrStep.topCall]
  | loop phaseIdx lp => rfl

theorem calls_flatMap (jobs : List Job) :
    jobs.flatMap Job.calls = (jobs.flatMap Job.steps).filterMap IrStep.topCall := by
  induction jobs with
  | nil => rfl
  | cons job jobs ih =>
    rw [List.flatMap_cons, List.flatMap_cons, List.filterMap_append, job.calls_eq, ih]

section Compiled

variable {program : EalProgram} {ir : MissionIr} (h : compile program = .ok ir)

include h

/-- No two steps of the jobs export the same binding. -/
theorem exports_unique_jobs : (ir.jobs.flatMap Job.steps).Pairwise fun s s' =>
    ∀ b, s.exportedBinding = some b → s'.exportedBinding ≠ some b := by
  refine (steps_jobs (compile_contiguous h)).symm.pairwise ?_ fun hss b hb hb' => hss b hb' hb
  rw [List.pairwise_iff_getElem]
  intro i j hi hj hij b hb hb'
  have hsame := compile_exports_unique h ⟨_, List.getElem?_eq_getElem hi, hb⟩
    ⟨_, List.getElem?_eq_getElem hj, hb'⟩
  exact absurd hsame (Nat.ne_of_lt hij)

/-- No two calls of the jobs export the same binding. -/
theorem noShare_jobs : (ir.jobs.flatMap Job.calls).Pairwise NoShare := by
  have hexports : ∀ (step : IrStep) (c : IrCall), step.topCall = some c →
      step.exportedBinding = c.outputBinding := by
    intro step c hc
    cases step with
    | call d =>
      cases hc
      rfl
    | loop lp => cases hc
  rw [calls_flatMap, List.pairwise_filterMap]
  refine (exports_unique_jobs h).imp ?_
  intro s s' hss c hc c' hc' b hb hb'
  exact hss b ((hexports s c hc).trans hb) ((hexports s' c' hc').trans hb')

/-- What a call reads is exported by calls of smaller phases only. -/
theorem phase_lt_of_reads {p p' : Nat} {c c' : IrCall} (hc : ir.CallIn p c) (hc' : ir.CallIn p' c')
    {ref : String × String} (href : ref ∈ c.inputRefs) (hb : c'.outputBinding = some ref.2) :
    p' < p := by
  obtain ⟨k, hphase, hk⟩ := hc
  obtain ⟨k', hphase', hk'⟩ := hc'
  obtain ⟨j, honly, q, hq, hj⟩ := compile_producers h hphase hk href
  have hkj : k' = j := (honly k').1 ⟨_, hk', hb⟩
  subst hkj
  rw [compile_inPhase_unique h hphase' hj]
  exact hq

end Compiled

/-! ## The batches of a phase -/

section Jobs

variable {ir : MissionIr}

/-- The phase of a job, and where its calls stand. -/
theorem mem_phaseJobs_calls {phase : PhaseRange × Nat} {job : Job} {c : IrCall}
    (hjob : job ∈ phaseJobs ir.steps phase) (hc : c ∈ job.calls) :
    job.phase = phase.2 ∧ IrStep.call c ∈ phaseSteps ir.steps phase.1 := by
  constructor
  · obtain ⟨partition, -, hmem⟩ := List.mem_flatMap.1 hjob
    cases partition with
    | calls run => rcases List.mem_pair.1 hmem with rfl | rfl <;> rfl
    | loop lp =>
      rw [List.mem_singleton.1 hmem]
      rfl
  · rw [job.calls_eq] at hc
    obtain ⟨step, hstep, hcall⟩ := List.mem_filterMap.1 hc
    have hmem : step ∈ (phaseJobs ir.steps phase).flatMap Job.steps :=
      List.mem_flatMap.2 ⟨job, hjob, hstep⟩
    rw [phaseJobs, (steps_splitPhaseSteps _ _ _).mem_iff] at hmem
    cases step with
    | call d =>
      cases hcall
      exact hmem
    | loop lp => cases hcall

/-- A call of a job is a step of its phase. -/
theorem callIn_of_mem_jobs {job : Job} {c : IrCall} (hjob : job ∈ ir.jobs) (hc : c ∈ job.calls) :
    ir.CallIn job.phase c := by
  obtain ⟨⟨r, p⟩, hphase, hmem⟩ := List.mem_flatMap.1 hjob
  obtain ⟨hp, hstep⟩ := mem_phaseJobs_calls hmem hc
  obtain ⟨k, hk⟩ := List.mem_iff_getElem?.1 hstep
  rw [phaseSteps, List.getElem?_drop] at hk
  obtain ⟨hlt, -⟩ := List.getElem?_eq_some_iff.1 hk
  have hstop : r.start + k < r.stop :=
    Nat.lt_of_lt_of_le hlt ((List.length_take_le _ _))
  rw [List.getElem?_take_of_lt hstop] at hk
  refine ⟨r.start + k, ⟨r, ?_, Nat.le_add_right _ _, hstop⟩, hk⟩
  rw [hp]
  exact List.mem_zipIdx_iff_getElem?.1 hphase

theorem splitPhaseSteps_of_calls {steps : List IrStep} (hfree : ∀ lp, IrStep.loop lp ∉ steps)
    (run : List IrCall) :
    splitPhaseSteps run steps = closeRun (run ++ steps.filterMap IrStep.topCall) := by
  induction steps generalizing run with
  | nil => rw [List.filterMap_nil, List.append_nil, splitPhaseSteps]
  | cons step rest ih =>
    cases step with
    | call c =>
      rw [splitPhaseSteps, ih fun lp hlp => hfree lp (List.mem_cons_of_mem _ hlp),
        List.append_assoc]
      rfl
    | loop lp => exact absurd List.mem_cons_self (hfree lp)

theorem optional_of_mem_indexedCalls {calls : List IrCall} {optional : Bool} {slot : IndexedCall}
    (h : slot ∈ indexedCalls calls optional) : slot.2.optional = optional := by
  obtain ⟨p, hp, rfl⟩ := List.mem_map.1 h
  exact beq_iff_eq.1 (List.mem_filter.1 hp).2

variable (hfree : ir.LoopFree)

include hfree

/-- The jobs of a phase: none, or the required calls and then the optional ones. -/
theorem phaseJobs_of_loopFree (phase : PhaseRange × Nat) :
    phaseJobs ir.steps phase = [] ∨ ∃ run many, phaseJobs ir.steps phase =
      [.batch phase.2 many (indexedCalls run false),
        .batch phase.2 many (indexedCalls run true)] := by
  have hcalls : ∀ lp, IrStep.loop lp ∉ phaseSteps ir.steps phase.1 :=
    fun lp hlp => hfree lp (List.mem_of_mem_take (List.mem_of_mem_drop hlp))
  rw [phaseJobs, splitPhaseSteps_of_calls hcalls, List.nil_append]
  unfold closeRun
  split
  · exact Or.inl rfl
  · exact Or.inr ⟨_, _, rfl⟩

/-- The jobs of a mission without loops are batches of required or of optional calls. -/
theorem batch_of_mem_jobs {job : Job} (hjob : job ∈ ir.jobs) :
    ∃ phaseIdx many run optional, job = .batch phaseIdx many (indexedCalls run optional) := by
  obtain ⟨phase, -, hmem⟩ := List.mem_flatMap.1 hjob
  rcases phaseJobs_of_loopFree hfree phase with hnil | ⟨run, many, hpair⟩
  · rw [hnil] at hmem
    cases hmem
  · rw [hpair] at hmem
    rcases List.mem_pair.1 hmem with rfl | rfl
    · exact ⟨_, _, _, _, rfl⟩
    · exact ⟨_, _, _, _, rfl⟩

/-- The jobs come in the order of their phases, optional calls last. -/
theorem before_jobs : ir.jobs.Pairwise Job.Before := by
  have hphaseOf : ∀ (phase : PhaseRange × Nat) (job : Job), job ∈ phaseJobs ir.steps phase →
      job.phase = phase.2 := by
    intro phase job hjob
    rcases phaseJobs_of_loopFree hfree phase with hnil | ⟨run, many, hpair⟩
    · rw [hnil] at hjob
      cases hjob
    · rw [hpair] at hjob
      rcases List.mem_pair.1 hjob with rfl | rfl <;> rfl
  rw [MissionIr.jobs, List.pairwise_flatMap]
  constructor
  · intro phase _
    rcases phaseJobs_of_loopFree hfree phase with hnil | ⟨run, many, hpair⟩
    · rw [hnil]
      exact List.Pairwise.nil
    · rw [hpair, List.pairwise_pair]
      refine Or.inr ⟨rfl, ?_⟩
      intro c hc
      obtain ⟨slot, hslot, rfl⟩ := List.mem_map.1 hc
      exact optional_of_mem_indexedCalls hslot
  · have hrange : (ir.phases.zipIdx.map Prod.snd).Pairwise (· < ·) := by
      rw [List.zipIdx_map_snd]
      exact List.pairwise_lt_range'
    refine (List.pairwise_map.1 hrange).imp ?_
    intro phase phase' hlt job hjob job' hjob'
    refine Or.inl ?_
    rw [hphaseOf phase job hjob, hphaseOf phase' job' hjob']
    exact hlt

end Jobs

end EasyNetDaemon.Eal
