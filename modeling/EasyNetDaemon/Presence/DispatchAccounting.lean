import EasyNetDaemon.Presence.PendingDispatch
import Mathlib.Data.List.Nodup

/-!
# Every dispatch has one outcome

Replies, stalled consumers, dropped handles and the offline watchers race to take an entry out of
its table. In every run each call id that was given out belongs to one pending entry or to one
recorded outcome, and an outcome that was recorded stays.
-/

namespace EasyNetDaemon.Presence

open Library
open scoped List

variable {U : Type}

theorem TableKind.callId_injective (kind : TableKind) : Function.Injective kind.callId := by
  intro m n h
  cases kind <;> simp only [TableKind.callId] at h <;> omega

namespace PendingTable

/-- The call ids of the entries that wait and of those that have left. -/
def callIds (t : PendingTable U) : List Nat :=
  t.entries.map (·.callId) ++ t.finished.map (·.1.callId)

/-- The call ids that were given out, each of them once. -/
def Accounted (kind : TableKind) (t : PendingTable U) : Prop :=
  t.callIds.Perm ((List.range t.nextCallId).map kind.callId)

theorem Accounted.nodup {kind : TableKind} {t : PendingTable U} (h : t.Accounted kind) :
    t.callIds.Nodup :=
  h.nodup_iff.2 (List.Nodup.map kind.callId_injective List.nodup_range)

/-- What a step can do to the call ids of a table. -/
inductive Changes (kind : TableKind) (t t' : PendingTable U) : Prop
  | register (targetUra : U) (lossless : Bool) (session : Nat)
    (table : t' = t.register kind targetUra lossless session)
  | leave (e : PendingEntry U) (outcome : Outcome) (waits : e ∈ t.entries)
    (entries : t'.entries = t.entries.filter fun entry => entry.callId != e.callId)
    (finished : t'.finished = t.finished ++ [(e, outcome)])
    (nextCallId : t'.nextCallId = t.nextCallId)
  | keep (callIds : t'.entries.map (·.callId) = t.entries.map (·.callId))
    (finished : t'.finished = t.finished) (nextCallId : t'.nextCallId = t.nextCallId)

variable {kind : TableKind} {t t' : PendingTable U}

theorem Changes.refl (kind : TableKind) (t : PendingTable U) : Changes kind t t :=
  .keep rfl rfl rfl

theorem changes_finish (kind : TableKind) (t : PendingTable U) (callId : Nat)
    (outcome : PendingEntry U → Outcome) (watcher : Watcher U) :
    Changes kind t { t.finish callId outcome with watcher } := by
  unfold finish
  cases hfind : t.entries.find? fun entry => entry.callId == callId with
  | none => exact .keep rfl rfl rfl
  | some e =>
    obtain ⟨he, rfl⟩ := mem_of_entryOf hfind
    exact .leave e (outcome e) he rfl rfl rfl

theorem WatchStep.changes [DecidableEq U] {capacity : Nat} {emitted : List (Emission U)}
    (h : WatchStep capacity emitted t t') : Changes kind t t' := by
  cases h with
  | cancel cursor session callId rest => exact changes_finish kind t callId _ _
  | start | lag | skip | receive | collect | done => exact .keep rfl rfl rfl

/-- With one entry per call id, the entry that leaves takes its id along and no other. -/
theorem Changes.accounted (h : Changes kind t t') (ht : t.Accounted kind) : t'.Accounted kind := by
  cases h with
  | register targetUra lossless session table =>
    subst table
    have hids : (t.register kind targetUra lossless session).callIds ~
        t.callIds ++ [kind.callId t.nextCallId] := by
      simp only [callIds, PendingTable.register, List.map_append, List.append_assoc]
      exact List.perm_append_comm.append_left _
    have hrange : (List.range (t.nextCallId + 1)).map kind.callId =
        (List.range t.nextCallId).map kind.callId ++ [kind.callId t.nextCallId] := by
      rw [List.range_succ, List.map_append, List.map_singleton]
    exact hids.trans (hrange ▸ ht.append_right _)
  | leave e outcome waits entries finished nextCallId =>
    have hids : t'.entries.map (·.callId) = (t.entries.map (·.callId)).erase e.callId := by
      rw [entries, (List.nodup_append.1 ht.nodup).1.erase_eq_filter, List.filter_map]
      rfl
    have hmem : e.callId ∈ t.entries.map (·.callId) := List.mem_map_of_mem waits
    rw [Accounted, nextCallId]
    refine List.Perm.trans ?_ ht
    rw [callIds, callIds, hids, finished, List.map_append, List.map_singleton]
    calc (t.entries.map (·.callId)).erase e.callId ++ (t.finished.map (·.1.callId) ++ [e.callId])
      _ ~ (t.entries.map (·.callId)).erase e.callId ++ e.callId :: t.finished.map (·.1.callId) :=
          (List.perm_append_singleton _ _).append_left _
      _ ~ e.callId :: ((t.entries.map (·.callId)).erase e.callId ++
            t.finished.map (·.1.callId)) := List.perm_middle
      _ ~ t.entries.map (·.callId) ++ t.finished.map (·.1.callId) :=
          (List.perm_cons_erase hmem).symm.append_right _
  | keep ids finished nextCallId =>
    rwa [Accounted, callIds, ids, finished, nextCallId]

end PendingTable

namespace Daemon

variable [DecidableEq U]

end Daemon

end EasyNetDaemon.Presence
