import Se7enService.RegistryRollback
set_option autoImplicit false

/-! What a recovery makes of the registry, from whatever state it starts in and however
often it is interrupted. -/

namespace Se7en
open Faulty

section Recovery

variable [Unicode] [RegistryNames] [Deserialize RegistryTransactionJournal]

/-- The journal that a recovery reads. -/
def ServiceFile.pending (file : ServiceFile) : Option RegistryTransactionJournal :=
  match file.settled with
  | none => none
  | some bytes => (parseCanonical bytes maxRegistryTransactionBytes).toOption

def RegistryTransactionJournal.restored (journal : RegistryTransactionJournal)
    (scope : RegisteredRegistryScope) (hive : Hive) : Hive :=
  if journal.phase = .prepared then
    Hive.store scope.key (recordedItems journal.values.reverse) hive
  else hive

/-- The registry after a completed recovery, if there can be one. -/
def RegistryStore.outcome (scopes : RegistryScopeRegistry) (s : RegistryStore) : Option Hive :=
  if s.transaction.Ambiguous then none
  else
    match s.transaction.settled with
    | none => some s.hive
    | some _ =>
      match s.transaction.pending with
      | none => none
      | some journal =>
        match validateRegistryTransaction journal scopes with
        | .error _ => none
        | .ok scope => some (journal.restored scope s.hive)

variable {scopes : RegistryScopeRegistry} {s t u : RegistryStore}

theorem RegistryStore.outcome_congr (htransaction : s.transaction.Alike t.transaction)
    (hhive : t.hive = s.hive) : t.outcome scopes = s.outcome scopes := by
  simp only [outcome, ServiceFile.pending, htransaction.settled, htransaction.ambiguous, hhive]

omit [Unicode] [RegistryNames] [Deserialize RegistryTransactionJournal] in
theorem ServiceFile.not_ambiguous_of_settled {file : ServiceFile} (h : file.settled = none) :
    ¬ file.Ambiguous := by
  obtain ⟨path, temporary, backup⟩ := file
  rintro ⟨hpath, -, -⟩
  cases path with
  | none => cases hpath
  | some document => cases h

theorem RegistryStore.outcome_none (h : s.transaction.settled = none) :
    s.outcome scopes = some s.hive := by
  simp [outcome, ServiceFile.not_ambiguous_of_settled h, h]

theorem RegistryStore.outcome_some {bytes : Bytes} {journal : RegistryTransactionJournal}
    {scope : RegisteredRegistryScope} (hsettled : s.transaction.settled = some bytes)
    (hambiguous : ¬ s.transaction.Ambiguous)
    (hparse : parseCanonical bytes maxRegistryTransactionBytes = .ok journal)
    (hvalid : validateRegistryTransaction journal scopes = .ok scope) :
    s.outcome scopes = some (journal.restored scope s.hive) := by
  simp [outcome, hambiguous, ServiceFile.pending, hsettled, hparse, hvalid, Except.toOption]

theorem RegistryStore.outcome_unreadable {bytes : Bytes} {e : MaintenanceError}
    (hsettled : s.transaction.settled = some bytes)
    (hparse : parseCanonical (α := RegistryTransactionJournal) bytes
      maxRegistryTransactionBytes = .error e) : s.outcome scopes = none := by
  simp [outcome, ServiceFile.pending, hsettled, hparse, Except.toOption]

theorem RegistryStore.outcome_invalid {bytes : Bytes} {journal : RegistryTransactionJournal}
    {e : MaintenanceError} (hsettled : s.transaction.settled = some bytes)
    (hparse : parseCanonical bytes maxRegistryTransactionBytes = .ok journal)
    (hvalid : validateRegistryTransaction journal scopes = .error e) :
    s.outcome scopes = none := by
  simp [outcome, ServiceFile.pending, hsettled, hparse, hvalid, Except.toOption]

/-- A recovery that does not complete leaves the outcome as it is, and only a fault keeps
it from completing where it can. -/
theorem wp_recoverRegistryTransaction {A : Event Empty → Prop} (scopes : RegistryScopeRegistry)
    (s : RegistryStore) :
    Wp A (recoverRegistryTransaction scopes)
      (fun _ t => s.outcome scopes = some t.hive ∧ t.transaction = ⟨none, none, none⟩)
      (fun _ t => ((∃ c, A (.fail c)) ∨ s.outcome scopes = none) ∧
        t.outcome scopes = s.outcome scopes)
      (fun t => t.outcome scopes = s.outcome scopes) s := by
  unfold recoverRegistryTransaction
  refine Wp.bind (Wp.part ((recover_settled _).mono ?_
    (fun _ t h => ⟨h.1.imp_right fun ha => if_pos ha, RegistryStore.outcome_congr h.2 rfl⟩)
    (fun t h => RegistryStore.outcome_congr h rfl)))
  rintro _ t ⟨hambiguous, rfl⟩
  change Wp A _ _ _ _ { s with transaction := ⟨s.transaction.settled, none, none⟩ }
  generalize hs' : ({ s with transaction := ⟨s.transaction.settled, none, none⟩ } : RegistryStore) = s'
  have hpath : s'.transaction = ⟨s.transaction.settled, none, none⟩ := by rw [← hs']
  have hhive : s'.hive = s.hive := by rw [← hs']
  have hsettled : s'.transaction.settled = s.transaction.settled := by
    rw [hpath]
    cases s.transaction.settled <;> rfl
  have hclear : ¬ s'.transaction.Ambiguous := by simp [hpath, ServiceFile.Ambiguous]
  have hsame : s'.outcome scopes = s.outcome scopes :=
    RegistryStore.outcome_congr ⟨hsettled, iff_of_false hclear hambiguous⟩ hhive
  refine Wp.bind (Wp.look ?_)
  cases hbytes : s.transaction.settled with
  | none =>
    simp only [hpath, hbytes, Option.isNone_none, if_true]
    exact Wp.pure ⟨by rw [← hsame, RegistryStore.outcome_none (hsettled.trans hbytes)],
      by rw [hpath, hbytes]⟩
  | some bytes =>
    simp only [hpath, hbytes, Option.isNone_some, Bool.false_eq_true, if_false]
    refine Wp.bind (Wp.look ?_)
    by_cases hlength : bytes.length ≤ maxRegistryTransactionBytes
    · simp only [readBounded, hpath, hbytes, Option.filter, hlength, decide_true, if_true]
      refine Wp.bind (Wp.lift (fun journal hparse => ?_) fun e hparse => ?_)
      case refine_2 =>
        exact ⟨.inr (RegistryStore.outcome_unreadable hbytes hparse), hsame⟩
      refine Wp.bind (Wp.lift (fun scope hvalid => ?_) fun e hvalid => ?_)
      case refine_2 =>
        exact ⟨.inr (RegistryStore.outcome_invalid hbytes hparse hvalid), hsame⟩
      have houtcome := RegistryStore.outcome_some (hsettled.trans hbytes) hclear hparse hvalid
      have hremove : ∀ v : RegistryStore, v.transaction = s'.transaction →
          v.hive = journal.restored scope s'.hive → v.outcome scopes = s.outcome scopes →
          Wp A removeRegistryTransaction
            (fun _ t => s.outcome scopes = some t.hive ∧ t.transaction = ⟨none, none, none⟩)
            (fun _ t => ((∃ c, A (.fail c)) ∨ s.outcome scopes = none) ∧
              t.outcome scopes = s.outcome scopes)
            (fun t => t.outcome scopes = s.outcome scopes) v := by
        intro v htransaction hv houtcome'
        have hdone : s.outcome scopes = some v.hive := by rw [← hsame, houtcome, hv]
        refine Wp.part (remove_spec.mono ?_ ?_ ?_)
        · rintro _ t rfl
          exact ⟨hdone, by simp [transactionFile, htransaction, hpath]⟩
        · rintro _ t ⟨hfail, rfl⟩
          exact ⟨.inl hfail, houtcome'⟩
        · rintro t (rfl | rfl)
          · exact houtcome'
          · have hnone : (transactionFile.set { v.transaction with path := none } v).transaction.settled
                = none := by simp [transactionFile, htransaction, hpath, ServiceFile.settled]
            exact (RegistryStore.outcome_none hnone).trans hdone.symm
      by_cases hphase : journal.phase = .prepared
      · simp only [hphase, if_true]
        refine Wp.bind (Wp.step_alone (p := openRegistryScopeKey scope)
          (.of_ok_or_fail .plain (t := s') (a := scope.key) rfl ?_ (fun hfail => ⟨.inl hfail, hsame⟩)
            hsame hsame))
        have hpartly : ∀ v, s'.Partly scope.key (recordedItems journal.values.reverse) v →
            v.outcome scopes = s.outcome scopes := by
          intro v hv
          have hstore : journal.restored scope v.hive = journal.restored scope s'.hive := by
            simp only [RegistryTransactionJournal.restored, hphase, if_true]
            exact Hive.store_congr hv.apart
          have hv' : v.transaction.settled = some bytes := by
            rw [hv.transaction]
            exact hsettled.trans hbytes
          have hclear' : ¬ v.transaction.Ambiguous := by rwa [hv.transaction]
          rw [RegistryStore.outcome_some hv' hclear' hparse hvalid, hstore, ← hsame, houtcome]
        refine Wp.bind ((wp_restoreReversed _ s').mono ?_
          (fun _ v h => ⟨.inl h.1, hpartly v h.2⟩) hpartly)
        rintro _ v rfl
        refine hremove _ rfl (by simp [RegistryTransactionJournal.restored, hphase,
          RegistryStore.stored]) (hpartly _ ⟨(recordedItems journal.values.reverse).length, ?_⟩)
        rw [List.take_length]
      · simp only [hphase, if_false]
        exact hremove s' rfl (by simp [RegistryTransactionJournal.restored, hphase]) hsame
    · simp only [readBounded, hpath, hbytes, Option.filter, hlength, decide_false,
        Bool.false_eq_true, if_false]
      have hparse : parseCanonical (α := RegistryTransactionJournal) bytes
          maxRegistryTransactionBytes =
            .error (.new .manifestTooLarge "signed document exceeds the configured bound") := by
        simp only [parseCanonical, gt_iff_lt, Nat.lt_of_not_le hlength, if_true, Result.throw_eq]
        rfl
      exact Wp.throw ⟨.inr (RegistryStore.outcome_unreadable hbytes hparse), hsame⟩

/-- `u` is where a completed recovery of `s` ends, after any number of others that were
cut off, failed or completed. -/
def RegistryStore.Recovers (scopes : RegistryScopeRegistry) (s u : RegistryStore) : Prop :=
  ∃ t, Rounds Anything (recoverRegistryTransaction scopes) s t ∧
    ∃ sch rest, recoverRegistryTransaction scopes t sch = (.ok (), u, rest)

theorem keeps_outcome (scopes : RegistryScopeRegistry) (hive : Option Hive) :
    Keeps Anything (fun t => t.outcome scopes = hive) (recoverRegistryTransaction scopes) := by
  rintro s rfl
  refine (wp_recoverRegistryTransaction scopes s).mono (fun _ t h => ?_) (fun _ _ h => h.2)
    (fun _ h => h)
  rw [RegistryStore.outcome_none (by rw [h.2]; rfl), h.1]

theorem RegistryStore.Recovers.outcome (h : Recovers scopes s u) :
    s.outcome scopes = some u.hive := by
  obtain ⟨t, hrounds, sch, rest, hrun⟩ := h
  have ht := (keeps_outcome scopes (s.outcome scopes)).rounds rfl hrounds
  exact ht ▸ ((wp_recoverRegistryTransaction (A := Anything) scopes t).result
    (fun _ _ => trivial) hrun).1

omit [Unicode] [Deserialize RegistryTransactionJournal] in
theorem calm_restoreReversed (key : RegistryKey) (values : List RegistryTransactionValue) :
    Calm (restoreReversed key values) := by
  induction values with
  | nil => exact Calm.pure _
  | cons value values ih => exact Calm.bind (Calm.step _) fun _ => ih

theorem calm_recoverRegistryTransaction (scopes : RegistryScopeRegistry) :
    Calm (recoverRegistryTransaction scopes) := by
  have hremove : Calm removeRegistryTransaction := by
    refine Calm.part (Calm.bind (Calm.look _) fun present => ?_)
    cases present
    · exact Calm.pure _
    · exact Calm.step _
  refine Calm.bind (Calm.part calm_recoverServiceFileReplacement) fun _ => Calm.bind (Calm.look _) fun absent => ?_
  cases absent
  case true => exact Calm.pure _
  refine Calm.bind (Calm.look _) fun content => ?_
  cases content with
  | none => exact Calm.throw _
  | some bytes =>
    refine Calm.bind (Calm.lift _) fun journal => Calm.bind (Calm.lift _) fun scope => ?_
    by_cases hphase : journal.phase = .prepared
    · simp only [hphase, if_true]
      exact Calm.bind (Calm.step _) fun _ => Calm.bind (calm_restoreReversed _ _) fun _ => hremove
    · simp only [hphase, if_false]
      exact hremove

theorem RegistryStore.exists_recovers {hive : Hive} (h : s.outcome scopes = some hive) :
    ∃ u, Recovers scopes s u ∧ u.hive = hive := by
  have hsmooth : Wp Smooth (recoverRegistryTransaction scopes)
      (fun _ t => s.outcome scopes = some t.hive) (fun _ _ => False) (fun _ => False) s := by
    refine ((wp_recoverRegistryTransaction scopes s).and
      (calm_recoverRegistryTransaction scopes s)).mono (fun _ _ h => h.1.1) ?_ (fun _ h => h.2)
    rintro _ t ⟨⟨⟨c, hc⟩ | hnone, -⟩, -⟩
    · cases hc
    · cases hnone.symm.trans h
  obtain ⟨_, u, rest, hrun, hu⟩ := hsmooth.run_nil
  exact ⟨u, ⟨s, .refl, [], rest, hrun⟩, Option.some.inj (hu.symm.trans h)⟩

end Recovery

end Se7en
