import PosteItaliane.Proofs.FinalReport
import PosteItaliane.Proofs.StatsSummary

/-!
# What the final report says

The children are killed wherever they are, and the report is made without asking for
`stats_lock`. It is the summary of the calls that were finished, together with the
assignments that the process inside its section had made when it was stopped.
-/

namespace PosteItaliane

open Framework

/-- The statistics of some calls, the last of which may have been stopped on the way. -/
def PosteStats.SummaryOf (x : PosteStats) (calls : List StatsOp) : Prop :=
  x = summary calls ∨ ∃ before op made, calls = before ++ [op] ∧ made <+: op.body ∧
    x = assignAll made (summary before)

variable {O U : Type} [Fintype O] [Fintype U] [DecidableEq O] [DecidableEq U]

/-- Whether the lock is free or not. -/
theorem poste_summaryOf (site : Site O U) (as : List (Act O U))
    (h : (poste site).Runs (World.init site) as) :
    ((poste site).after (World.init site) as).sh.stats.value.SummaryOf (statsCalls site as) := by
  obtain ⟨hruns, hstats⟩ := (poste_refines_stats site).run
    (t := (⟨{}, none⟩ : Monitor (Proc O U) PosteStats StatsWrite)) rfl as h
  have hmade := Monitor.clients_madeUpTo summary_snoc summary_nil.symm _ hruns
  rw [← hstats, ← statsCalls] at hmade
  generalize ((poste site).after (World.init site) as).sh.stats = m at hmade ⊢
  obtain ⟨value, _ | ⟨p, ws⟩⟩ := m
  · exact Or.inl hmade
  · obtain ⟨before, op, made, hcalls, hbody, hvalue⟩ := hmade
    exact Or.inr ⟨before, op, made, hcalls, ⟨ws, hbody.symm⟩, hvalue⟩

end PosteItaliane
