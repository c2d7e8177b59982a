import BoardEval.Engine.Any
import BoardEval.Proofs.Metering

/-!
# Creations and teardowns balance

Contexts are built, successfully or not, shared and dropped, and handles are opened through
them and closed. All along, every engine has as many creations outstanding as there are
contexts in use that are bound to it: nothing is torn down twice, nothing that was refused
is torn down, and nothing is left behind. A build that fails, for whatever reason, leaves an
engine alone, or has a creation refused, or undoes the one that it made.

An engine cannot tell for which context it is called, so the law is about numbers of calls.
What the engines do in these calls is left open.
-/

namespace BoardEval

/-- A count over the numbers below a bound, when one number changes its answer. -/
theorem countP_range_change {p q : Nat → Bool} {i n : Nat} (inside : i < n)
    (same : ∀ j, j ≠ i → p j = q j) :
    (List.range n).countP p + (q i).toNat = (List.range n).countP q + (p i).toNat := by
  induction n with
  | zero => contradiction
  | succ n inductionHypothesis =>
    rw [List.range_succ, List.countP_append, List.countP_append, List.countP_singleton,
      List.countP_singleton]
    by_cases last : i = n
    · subst last
      have before : (List.range i).countP p = (List.range i).countP q := by
        apply List.countP_congr
        intro j listed
        rw [same j (Nat.ne_of_lt (List.mem_range.mp listed))]
      rw [before]
      cases p i <;> cases q i <;> simp
    · have rest := inductionHypothesis (by omega)
      rw [same n (Ne.symm last)]
      omega

/-- Adding no call to a log changes nothing, whether there is a log or not. -/
theorem map_append_nil {α : Type} (o : Option (List α)) : o.map (· ++ []) = o := by
  cases o with
  | none => rfl
  | some calls => exact congrArg some (List.append_nil calls)

/-- In a list without repetitions, counting an element asks whether it is there. -/
theorem member_count {l : List Nat} {k : Nat} (once : l.count k ≤ 1) :
    (if k ∈ l then 1 else 0) = l.count k := by
  split
  · rename_i member
    have some := List.count_pos_iff.mpr member
    omega
  · rename_i other
    exact (List.count_eq_zero.mpr other).symm

open ContextCall (tally)

namespace Registry

variable {ε : Type}

/-- What happened to the context of engine `k`. -/
def calls? (r : Registry (Metered ε)) (k : Nat) : Option (List ContextCall) :=
  (r.engines[k]?).map (·.calls)

/-- The number of contexts in use that are bound to engine `k`. -/
def liveOn (r : Registry ε) (k : Nat) : Nat :=
  (List.range r.contexts.size).countP fun id =>
    decide (0 < r.holders id) && decide (k ∈ r.enginesOf id)

section

variable {r r' : Registry (Metered ε)} {k : Nat}

/-- Replacing an engine by one with a longer log adds to the log of that engine and
to no other. -/
theorem calls?_setEngine {j : Nat} {m m' : Metered ε} {more : List ContextCall}
    (listed : r.engines[j]? = some m) (called : m'.calls = m.calls ++ more) (k : Nat) :
    (r.setEngine j m').calls? k = (r.calls? k).map (· ++ if j = k then more else []) := by
  unfold calls?
  by_cases same : j = k
  · subst same
    rw [setEngine_self listed, listed, if_pos rfl]
    exact congrArg some called
  · rw [r.setEngine_other m' same, if_neg same, map_append_nil]

/-- Live contexts are counted from the contexts alone, whatever the engines do. -/
theorem liveOn_congr {r r' : Registry ε} (same : r'.contexts = r.contexts) (k : Nat) :
    r'.liveOn k = r.liveOn k := by
  unfold liveOn
  rw [same]
  apply List.countP_congr
  intro id _
  rw [holders_congr same, enginesOf_congr same]

/-- Engine `k` was called as the contexts in use on it changed. -/
def Accounts (r r' : Registry (Metered ε)) (k : Nat) : Prop :=
  ∃ more, r'.calls? k = (r.calls? k).map (· ++ more) ∧
    more.foldl tally (some (r.liveOn k)) = some (r'.liveOn k)

/-- Two steps in a row account for what both of them change: the second starts from
what the first leaves outstanding. -/
theorem Accounts.trans {r'' : Registry (Metered ε)} (first : r.Accounts r' k)
    (second : r'.Accounts r'' k) : r.Accounts r'' k := by
  obtain ⟨more, calls, tallied⟩ := first
  obtain ⟨later, calls', tallied'⟩ := second
  refine ⟨more ++ later, ?_, ?_⟩
  · rw [calls', calls, Option.map_map]
    congr 1
    funext before
    exact List.append_assoc _ _ _
  · rw [List.foldl_append, tallied, tallied']

/-- An engine that was not called still accounts for the same contexts. -/
theorem Accounts.uncalled (calls : r'.calls? k = r.calls? k) (live : r'.liveOn k = r.liveOn k) :
    r.Accounts r' k := by
  exact ⟨[], by rw [calls, map_append_nil], congrArg some live.symm⟩

end

section

variable [Engine ε] (r : Registry (Metered ε))

/-- Every teardown is one call of the engine that it is for, and of no other. The
induction is on the engines, which may repeat. -/
theorem destroyContexts_calls (ids : List Nat) (k : Nat) :
    (r.destroyContexts ids).calls? k =
      (r.calls? k).map (· ++ List.replicate (ids.count k) .destroyed) := by
  induction ids generalizing r with
  | nil => simp [destroyContexts]
  | cons id ids inductionHypothesis =>
    rw [destroyContexts_cons, inductionHypothesis]
    cases listed : r.engines[id]? with
    | none =>
      by_cases same : id = k
      · subst same
        simp [calls?, listed]
      · simp only [List.count_cons_of_ne same]
    | some m =>
      have called : (r.setEngine id (Engine.destroyContext m)).calls? k =
          (r.calls? k).map (· ++ if id = k then [.destroyed] else []) :=
        calls?_setEngine listed rfl k
      simp only [called, Option.map_map, List.count_cons, beq_iff_eq]
      congr 1
      funext before
      by_cases same : id = k
      · simp [same, List.replicate_succ]
      · simp [same]

/-- A teardown calls an engine that is listed once, once. -/
theorem destroyContexts_once (r : Registry (Metered ε)) {ids : List Nat} {k : Nat}
    (once : ids.count k ≤ 1) : (r.destroyContexts ids).calls? k =
      (r.calls? k).map (· ++ if k ∈ ids then [.destroyed] else []) := by
  rw [destroyContexts_calls]
  by_cases listed : k ∈ ids
  · have more := List.count_pos_iff.mpr listed
    have single : ids.count k = 1 := by omega
    rw [if_pos listed, single]
    rfl
  · rw [if_neg listed, List.count_eq_zero.mpr listed]
    rfl

/-- A creation that went well stands in the log of its engine, and the next engine is asked. -/
theorem createContexts_calls {r r' : Registry (Metered ε)} {config : ContextConfig}
    {created ids : List Nat} (made : r.createContexts config created ids = (r', .ok ())) (k : Nat) :
    r'.calls? k = (r.calls? k).map (· ++ List.replicate (ids.count k) .created) := by
  induction ids generalizing r created with
  | nil =>
    obtain ⟨rfl, _⟩ := Prod.mk.inj made
    exact (map_append_nil _).symm
  | cons id ids inductionHypothesis =>
    cases listed : r.engines[id]? with
    | none =>
      simp only [createContexts, listed] at made
      rw [inductionHypothesis made]
      by_cases same : id = k
      · subst same
        simp only [calls?, listed, Option.map_none]
      · simp only [List.count_cons_of_ne same]
    | some m =>
      cases called : Engine.createContext m config with
      | mk m' result =>
        simp only [createContexts, listed, called] at made
        cases result with
        | error cause => cases (Prod.mk.inj made).2
        | ok u =>
          rw [inductionHypothesis made,
            calls?_setEngine listed (Metered.createContext_calls called),
            Option.map_map]
          congr 1
          funext before
          by_cases same : id = k
          · subst same
            simp [List.replicate_succ, ContextCall.ofResult]
          · simp [same]

/-- What a build that fails leaves with one engine: nothing, a creation that was refused, or
one that was undone. -/
def undone : List (List ContextCall) := [[], [.refused], [.created, .destroyed]]

/-- If an engine refuses, the creations before it are undone. An engine whose context was
created before is called once more, and any other engine is left as after a whole build
that failed.

Proof: by induction on the engines still to be asked. An engine is asked once at most,
so its log is settled when its turn comes: a creation is followed by the teardown at
the failure, a refusal is the failure, and an engine whose turn never comes writes
nothing. -/
theorem createContexts_undone {r r' : Registry (Metered ε)} {config : ContextConfig}
    {created ids : List Nat} {cause : EngineError}
    (failed : r.createContexts config created ids = (r', .error cause)) {k : Nat}
    (once : created.count k + ids.count k ≤ 1) :
    ∃ more, r'.calls? k = (r.calls? k).map (· ++ more) ∧
      if k ∈ created then more = [.destroyed] else more ∈ undone := by
  induction ids generalizing r created with
  | nil => exact nomatch (Prod.mk.inj failed).2
  | cons id ids inductionHypothesis =>
    cases listed : r.engines[id]? with
    | none =>
      simp only [createContexts, listed] at failed
      rw [List.count_cons] at once
      exact inductionHypothesis failed (by omega)
    | some m =>
      cases called : Engine.createContext m config with
      | mk m' result =>
        have written := Metered.createContext_calls called
        simp only [createContexts, listed, called] at failed
        by_cases same : id = k
        · -- Engine `k` itself is asked. It was not asked before and is not asked again.
          subst same
          rw [List.count_cons_self] at once
          have first : id ∉ created := List.count_eq_zero.mp (by omega)
          simp only [first, if_false]
          cases result with
          | ok u =>
            obtain ⟨more, calls, last⟩ := inductionHypothesis failed
              (by rw [List.count_append, List.count_singleton_self]; omega)
            rw [if_pos (List.mem_append_right _ List.mem_cons_self)] at last
            refine ⟨[.created, .destroyed], ?_, by decide⟩
            rw [calls, last, calls?_setEngine listed written, if_pos rfl, Option.map_map]
            congr 1
            funext before
            exact List.append_assoc before _ _
          | error cause' =>
            obtain ⟨rfl, _⟩ := Prod.mk.inj failed
            refine ⟨[.refused], ?_, by decide⟩
            rw [destroyContexts_once _ (by omega), if_neg first, map_append_nil,
              calls?_setEngine listed written, if_pos rfl]
            rfl
        · rw [List.count_cons_of_ne same] at once
          have unasked : (r.setEngine id m').calls? k = r.calls? k := by
            rw [calls?_setEngine listed written, if_neg same, map_append_nil]
          cases result with
          | ok u =>
            obtain ⟨more, calls, last⟩ := inductionHypothesis failed
              (by rw [List.count_append, List.count_cons_of_ne same]; simpa using once)
            refine ⟨more, by rw [calls, unasked], ?_⟩
            simpa [Ne.symm same] using last
          | error cause' =>
            obtain ⟨rfl, _⟩ := Prod.mk.inj failed
            refine ⟨_, by rw [destroyContexts_once _ (by omega), unasked], ?_⟩
            split
            · rfl
            · decide

end

/-! ## Contexts in use -/

section

variable {r : Registry ε} {id k : Nat}

/-- One holder more does not bring a context to life that was live already. -/
theorem liveOn_hold (held : 0 < r.holders id) (k : Nat) : (r.hold id).liveOn k = r.liveOn k := by
  have size : (r.hold id).contexts.size = r.contexts.size := Array.size_modify
  unfold liveOn
  rw [size]
  apply List.countP_congr
  intro other _
  have use : 0 < (r.hold id).holders other ↔ 0 < r.holders other := by
    rw [holders_hold held]
    split
    · rename_i same
      subst same
      omega
    · rfl
  rw [decide_eq_decide.mpr use, enginesOf_hold]

/-- A new context is in use on the engines that it was built with. -/
theorem liveOn_pushed (r : Registry ε) (c : Context) (k : Nat) :
    liveOn { r with contexts := r.contexts.push ⟨c, 1⟩ } k =
      r.liveOn k + if k ∈ c.engines then 1 else 0 := by
  have old : ∀ id ∈ List.range r.contexts.size, r.contexts.size ≠ id := fun id listed =>
    Ne.symm (Nat.ne_of_lt (List.mem_range.mp listed))
  unfold liveOn
  simp only [Array.size_push, List.range_succ, List.countP_append, List.countP_singleton,
    holders_pushed, enginesOf_pushed, if_true]
  congr 1
  · apply List.countP_congr
    intro id listed
    rw [if_neg (old id listed), if_neg (old id listed), Nat.add_zero]
  · simp

end

section

variable [Engine ε]

/-- A context is given up on its engines with its last user. -/
theorem liveOn_release {r : Registry ε} {id : Nat} (held : 0 < r.holders id) (k : Nat) :
    r.liveOn k = (r.release id).liveOn k +
      if r.holders id = 1 ∧ k ∈ r.enginesOf id then 1 else 0 := by
  have size : (r.release id).contexts.size = r.contexts.size := by
    rw [release_contexts]
    exact Array.size_modify
  have others : ∀ other, other ≠ id →
      (decide (0 < r.holders other) && decide (k ∈ r.enginesOf other)) =
        (decide (0 < (r.release id).holders other) &&
          decide (k ∈ (r.release id).enginesOf other)) := by
    intro other apart
    rw [holders_release, if_neg (Ne.symm apart), enginesOf_release, Nat.sub_zero]
  have change := countP_range_change (contexts_of_held held) others
  rw [← size] at change
  simp only [holders_release, enginesOf_release, if_true] at change
  unfold liveOn
  rw [size] at change ⊢
  simp only [holders_release, enginesOf_release]
  generalize (List.range r.contexts.size).countP _ = before at *
  generalize (List.range r.contexts.size).countP _ = behind at *
  by_cases bound : k ∈ r.enginesOf id
  · by_cases last : r.holders id = 1
    · simp [bound, last] at change ⊢
      omega
    · have more : 0 < r.holders id - 1 := by omega
      simp [bound, last, held, more] at change ⊢
      omega
  · simp [bound] at change ⊢
    omega

/-- Whatever engines the context binds in this registry, each is of the kind it is bound as. -/
def KindsMatch (r : Registry ε) (c : Context) : Prop :=
  ∀ kind k engine, c.engineOf? kind = some k → r.engines[k]? = some engine →
    (Engine.capabilities engine).kind = kind

/-- The check of kinds lets pass only contexts whose engines are of the kinds that
they were bound for. -/
theorem kindsMatch_of_checked {r : Registry ε} {c : Context} (checked : r.checkKinds c = .ok ()) :
    r.KindsMatch c := by
  intro kind k engine bound listed
  simp only [checkKinds, List.forM, bind_ok_iff] at checked
  obtain ⟨_, accelerated, _, secondary, _⟩ := checked
  have right {kind : EngineKind} {cause : ServiceError}
      (passed : (if (Engine.capabilities engine).kind = kind then .ok () else .error cause) =
        Except.ok ()) : (Engine.capabilities engine).kind = kind := by
    split at passed
    · assumption
    · contradiction
  cases kind with
  | accelerated =>
    have here : c.accelerated = some k := bound
    simp only [here, Option.bind_some, listed] at accelerated
    exact right accelerated
  | secondary =>
    have here : c.secondary = some k := bound
    simp only [here, Option.bind_some, listed] at secondary
    exact right secondary

/-- An engine is of one kind, so a context is bound to it once. -/
theorem count_engines {r : Registry ε} {c : Context} (checked : r.checkKinds c = .ok ()) {k : Nat}
    {e : ε} (listed : r.engines[k]? = some e) : c.engines.count k ≤ 1 := by
  have single (o : Option Nat) : o.toList.count k = if o = some k then 1 else 0 := by
    cases o with
    | none => rfl
    | some j => simp [List.count_singleton]
  have kinds := kindsMatch_of_checked checked
  rw [Context.engines, List.count_append, single, single]
  by_cases first : c.accelerated = some k
  · have apart : c.secondary ≠ some k := by
      intro second
      have other := kinds .secondary k e second listed
      cases other.symm.trans (kinds .accelerated k e first listed)
    rw [if_neg apart]
    split <;> omega
  · rw [if_neg first]
    split <;> omega

/-- Letting go of a context in use tears down what was created for it, with the last user. -/
theorem release_accounts {r : Registry (Metered ε)} {id k : Nat} (held : 0 < r.holders id)
    (once : (r.enginesOf id).count k ≤ 1) : r.Accounts (r.release id) k := by
  have live := liveOn_release held k
  have engines := r.release_engines id
  by_cases last : r.holders id = 1
  · rw [if_pos last] at engines
    simp only [last, true_and, member_count once] at live
    refine ⟨List.replicate ((r.enginesOf id).count k) .destroyed, ?_, ?_⟩
    · rw [← destroyContexts_calls, calls?, calls?, engines]
    · rw [live, ContextCall.tally_destroyed]
  · rw [if_neg last] at engines
    rw [if_neg (fun both => last both.1), Nat.add_zero] at live
    exact .uncalled (by rw [calls?, engines]; rfl) live.symm

/-- A handle that is closed gives its model back first, which no meter counts. -/
theorem close_accounts {r : Registry (Metered ε)} (h : Handle) {k : Nat}
    (held : 0 < r.holders h.context) (once : (r.enginesOf h.context).count k ≤ 1) :
    r.Accounts (h.close r) k := by
  have contexts := h.unloaded_contexts r
  have calls : (h.unloaded r).calls? k = r.calls? k := by
    unfold Handle.unloaded
    cases listed : r.engines[h.engine]? with
    | none => rfl
    | some m =>
      have same : (Engine.releaseModel m h.model).calls = m.calls ++ [] :=
        (List.append_nil _).symm
      rw [calls?_setEngine listed same, ite_self, map_append_nil]
  have released : (h.unloaded r).Accounts (h.close r) k :=
    release_accounts (holders_congr contexts h.context ▸ held)
      (enginesOf_congr contexts h.context ▸ once)
  exact (Accounts.uncalled calls (liveOn_congr contexts k)).trans released

/-- A model that is loaded, or fails to load, is not counted either. -/
theorem loadModel_calls {r : Registry (Metered ε)} {j : Nat} {m m' : Metered ε} {d : Descriptor}
    {config : ModelConfig} {result : Except (Failure EngineError) LoadedModel}
    (listed : r.engines[j]? = some m) (called : Engine.loadModel m d config = (m', result))
    (k : Nat) : (r.setEngine j m').calls? k = r.calls? k := by
  have same : m'.calls = m.calls ++ [] := by
    rw [m.loadModel_eq] at called
    obtain ⟨rfl, _⟩ := Prod.mk.inj called
    exact (List.append_nil _).symm
  rw [calls?_setEngine listed same, ite_self, map_append_nil]

end

end Registry

namespace Session

variable {ε : Type}

/-- The number of contexts bound to engine `k` that some reference or open handle uses. -/
def liveOn (s : Session ε) (k : Nat) : Nat :=
  (List.range s.registry.contexts.size).countP fun id =>
    decide (id ∈ s.users) && decide (k ∈ s.registry.enginesOf id)

/-- Each of the first `n` engines has a creation outstanding for every context in use that is
bound to it. -/
structure Accounted (n : Nat) (s : Session (Metered ε)) : Prop where
  counted : s.Counted
  once : ∀ id, ∀ k < n, (s.registry.enginesOf id).count k ≤ 1
  outstanding : ∀ k < n, ∃ calls, s.registry.calls? k = some calls ∧
    ContextCall.outstanding calls = some (s.registry.liveOn k)

/-- Where holders are counted exactly, a context is live in the registry if and only
if someone in the session uses it. -/
theorem Counted.liveOn {s : Session ε} (counted : s.Counted) (k : Nat) :
    s.registry.liveOn k = s.liveOn k := by
  unfold Registry.liveOn Session.liveOn
  apply List.countP_congr
  intro id _
  rw [counted id, decide_eq_decide.mpr List.count_pos_iff]

section

variable {n : Nat} {s s' : Session (Metered ε)}

/-- One step keeps the balance: the calls that it adds account for the contexts that
came to life or ended. -/
theorem Accounted.step (accounted : s.Accounted n) (counted : s'.Counted)
    (accounts : ∀ k < n, s.registry.Accounts s'.registry k)
    (once : ∀ id, ∀ k < n, (s'.registry.enginesOf id).count k ≤ 1) : s'.Accounted n := by
  refine ⟨counted, once, ?_⟩
  intro k inside
  obtain ⟨before, called, balance⟩ := accounted.outstanding k inside
  obtain ⟨more, calls, tallied⟩ := accounts k inside
  refine ⟨before ++ more, by rw [calls, called]; rfl, ?_⟩
  rw [ContextCall.outstanding_append, balance, tallied]

/-- At first there are neither calls nor contexts. -/
theorem start_accounted (engines : Array ε) :
    (start (engines.map Metered.fresh)).Accounted engines.size where
  counted := start_counted _
  once := by
    intro id k _
    exact Nat.zero_le _
  outstanding := by
    intro k inside
    refine ⟨[], ?_, rfl⟩
    have listed : (start (engines.map Metered.fresh)).registry.engines[k]? =
        some (.fresh engines[k]) := by
      rw [start, Array.getElem?_map, Array.getElem?_eq_getElem inside]
      rfl
    rw [Registry.calls?, listed]
    rfl

end

variable [Engine ε]

/-- What a build can come to. A context that an engine refuses, or that is registered, had
passed the check of kinds. -/
theorem buildContext_outcome (s : Session ε) (c : Context) :
    (∃ cause, s.buildContext c = (s, .error cause)) ∨
    s.registry.checkKinds c = .ok () ∧
      ((∃ r cause, s.registry.createContexts c.config [] c.engines = (r, .error cause) ∧
        s.buildContext c = ({ s with registry := r }, .error (.engine cause))) ∨
      ∃ r, s.registry.createContexts c.config [] c.engines = (r, .ok ()) ∧
        s.buildContext c = ({ s with
          registry := { r with contexts := r.contexts.push ⟨c, 1⟩ }
          references := s.references.push (some r.contexts.size) }, .ok s.references.size)) := by
  unfold buildContext Registry.build
  cases c.config.validate with
  | error cause => exact .inl ⟨_, rfl⟩
  | ok u =>
    by_cases empty : c.engines.isEmpty = true
    · simp only [empty, if_true]
      exact .inl ⟨_, rfl⟩
    simp only [empty]
    cases s.registry.checkKinds c with
    | error cause => exact .inl ⟨_, rfl⟩
    | ok u =>
      refine .inr ⟨rfl, ?_⟩
      cases s.registry.createContexts c.config [] c.engines with
      | mk r result =>
        cases result with
        | error cause => exact .inl ⟨r, cause, rfl, rfl⟩
        | ok u => exact .inr ⟨r, rfl, rfl⟩

variable {n : Nat} {s s' : Session (Metered ε)} {op : Operation}

/-- A context that passed the check of kinds is bound to each engine once. -/
theorem Accounted.bound (accounted : s.Accounted n) {c : Context}
    (checked : s.registry.checkKinds c = .ok ()) {k : Nat} (inside : k < n) :
    c.engines.count k ≤ 1 := by
  obtain ⟨calls, called, _⟩ := accounted.outstanding k inside
  obtain ⟨m, listed, _⟩ := Option.map_eq_some_iff.mp called
  exact Registry.count_engines checked listed

/-- What a build that failed left with an engine is nothing outstanding. -/
theorem tally_undone {more : List ContextCall} (left : more ∈ Registry.undone) (m : Nat) :
    more.foldl ContextCall.tally (some m) = some m := by
  simp only [Registry.undone, List.mem_cons, List.not_mem_nil, or_false] at left
  rcases left with rfl | rfl | rfl <;> rfl

/-- A build accounts for its context if it succeeds, and for nothing if it fails. -/
theorem Accounted.build (accounted : s.Accounted n) (c : Context) :
    (s.buildContext c).1.Accounted n := by
  have counted := (s.buildContext_change c).counted accounted.counted
  rcases s.buildContext_outcome c with
    ⟨_, same⟩ | ⟨checked, ⟨r, cause, failed, built⟩ | ⟨r, made, built⟩⟩
  · rw [same]
    exact accounted
  · rw [built] at counted ⊢
    have contexts := Registry.contexts_of_created failed
    refine accounted.step counted ?_ ?_
    · intro k inside
      obtain ⟨more, calls, left⟩ := Registry.createContexts_undone failed (k := k)
        (by simpa using accounted.bound checked inside)
      rw [if_neg List.not_mem_nil] at left
      exact ⟨more, calls, by rw [tally_undone left, Registry.liveOn_congr contexts]⟩
    · intro id k inside
      rw [Registry.enginesOf_congr contexts]
      exact accounted.once id k inside
  · rw [built] at counted ⊢
    have contexts := Registry.contexts_of_created made
    refine accounted.step counted ?_ ?_
    · intro k inside
      refine ⟨_, Registry.createContexts_calls made k, ?_⟩
      rw [ContextCall.tally_created, r.liveOn_pushed, member_count (accounted.bound checked inside),
        Registry.liveOn_congr contexts]
    · intro id k inside
      rw [r.enginesOf_pushed]
      split
      · exact accounted.bound checked inside
      · rw [Registry.enginesOf_congr contexts]
        exact accounted.once id k inside

/-- So does every other change. Only the last user of a context makes calls.

Proof: what the operation does to holders and bindings is read off its case. Only
where the last user goes does an engine write something, one teardown for each engine
of that context, and there the context stops to be live. -/
theorem Accounted.change (accounted : s.Accounted n) (change : s.Change op s')
    (other : ∀ c, op ≠ .build c) : s'.Accounted n := by
  have counted := change.counted accounted.counted
  cases change with
  | nothing => exact accounted
  | refused => exact absurd rfl (other _)
  | built => exact absurd rfl (other _)
  | shared used =>
    have held := accounted.counted.held used
    refine accounted.step counted ?_ ?_
    · intro k _
      exact .uncalled rfl (Registry.liveOn_hold held k)
    · intro id k inside
      rw [Registry.enginesOf_hold]
      exact accounted.once id k inside
  | @dropped number id referred =>
    have held := accounted.counted.held (referred_used referred)
    refine accounted.step counted ?_ ?_
    · intro k inside
      exact Registry.release_accounts held (accounted.once id k inside)
    · intro id k inside
      rw [Registry.enginesOf_release]
      exact accounted.once id k inside
  | unloaded listed failed =>
    refine accounted.step counted ?_ accounted.once
    intro k _
    exact .uncalled (Registry.loadModel_calls listed failed k) rfl
  | loaded used bound listed loaded =>
    have held := accounted.counted.held used
    refine accounted.step counted ?_ ?_
    · intro k _
      exact .uncalled (Registry.loadModel_calls listed loaded k) (Registry.liveOn_hold held k)
    · intro id k inside
      rw [Registry.enginesOf_hold]
      exact accounted.once id k inside
  | @closed number h opened =>
    have held := accounted.counted.held (opened_used (mem_live.mpr ⟨number, opened⟩))
    refine accounted.step counted ?_ ?_
    · intro k inside
      exact Registry.close_accounts h held (accounted.once h.context k inside)
    · intro id k inside
      rw [Handle.close_eq, Registry.enginesOf_release,
        Registry.enginesOf_congr (h.unloaded_contexts s.registry)]
      exact accounted.once id k inside

/-- Every operation keeps the balance, those that fail included. -/
theorem Accounted.perform (accounted : s.Accounted n) (op : Operation) :
    (s.perform op).Accounted n := by
  by_cases built : ∃ c, op = .build c
  · obtain ⟨c, rfl⟩ := built
    exact accounted.build c
  · exact accounted.change (s.perform_change op) fun c same => built ⟨c, same⟩

/-- The balance holds after any operations. The induction is on them. -/
theorem Accounted.after (accounted : s.Accounted n) (ops : List Operation) :
    (s.after ops).Accounted n := by
  induction ops generalizing s with
  | nil => exact accounted
  | cons op ops inductionHypothesis => exact inductionHypothesis (accounted.perform op)

/-- Over every sequence of builds, clones, drops and openings and closings of handles, failed
ones included, and for every engine: the meter changes nothing about the session; the
successful creations of the engine's context are its teardowns and the contexts in use that
are bound to it; there were never more teardowns than successful creations; and a build that
fails now leaves the engine alone, or has its creation refused, or undoes the creation that it
made.

Proof: the balance is an invariant of all operations. It gives the counts and, as the
balance of no prefix is negative, the order of teardowns after creations. A build that
fails adds to a log what the undoing of its creations adds, or nothing where it is
refused before any engine is asked. -/
theorem context_calls_balanced (engines : Array ε) (ops : List Operation) :
    let s := (start (engines.map Metered.fresh)).after ops
    s.bare = (start engines).after ops ∧
      ∀ k < engines.size, ∃ m, s.registry.engines[k]? = some m ∧
        m.calls.count .created =
          m.calls.count .destroyed + ((start engines).after ops).liveOn k ∧
        (∀ earlier, earlier <+: m.calls → earlier.count .destroyed ≤ earlier.count .created) ∧
        ∀ c s' cause, s.buildContext c = (s', .error cause) →
          ∃ m', s'.registry.engines[k]? = some m' ∧
            ∃ more ∈ Registry.undone, m'.calls = m.calls ++ more := by
  intro s
  have accounted : s.Accounted engines.size := (start_accounted engines).after ops
  have bare : s.bare = (start engines).after ops := bare_after engines ops
  refine ⟨bare, ?_⟩
  intro k inside
  obtain ⟨_, called, balance⟩ := accounted.outstanding k inside
  obtain ⟨m, listed, rfl⟩ := Option.map_eq_some_iff.mp called
  obtain ⟨counts, prefixes⟩ := ContextCall.count_of_outstanding balance
  have live : s.registry.liveOn k = ((start engines).after ops).liveOn k := by
    rw [accounted.counted.liveOn, ← bare]
    rfl
  refine ⟨m, listed, live ▸ counts, prefixes, ?_⟩
  intro c s' cause failed
  rcases s.buildContext_outcome c with ⟨_, same⟩ | ⟨checked, ⟨r, _, refused, built⟩ | ⟨_, _, built⟩⟩
  · obtain ⟨rfl, _⟩ := Prod.mk.inj (same.symm.trans failed)
    exact ⟨m, listed, [], by decide, (List.append_nil _).symm⟩
  · obtain ⟨rfl, _⟩ := Prod.mk.inj (built.symm.trans failed)
    obtain ⟨more, calls, left⟩ := Registry.createContexts_undone refused (k := k)
      (by simpa using accounted.bound checked inside)
    rw [if_neg List.not_mem_nil] at left
    rw [called] at calls
    obtain ⟨m', listed', written⟩ := Option.map_eq_some_iff.mp calls
    exact ⟨m', listed', more, left, written⟩
  · exact nomatch (Prod.mk.inj (built.symm.trans failed)).2

/-- An accelerated engine that works. -/
def willing : AnyEngine := .host (.new .accelerated fun _ slots _ => .ok slots)

/-- A secondary engine that refuses every context. -/
def unwilling : AnyEngine :=
  .scripted (.failingAt "broken" .secondary .createContext .contextMissing)

/-- A context on the first engine, or on the first and another one. -/
def pairContext (secondary : Option Nat) : Context := ⟨.default, some 0, secondary⟩

/-- A context of the first engine is built and cloned. A second one on both engines fails: the
first engine undoes its part, and the context in use stays. -/
theorem context_calls_balanced_pair :
    let ops : List Operation := [.build (pairContext none), .clone 0]
    let s := (start (#[willing, unwilling].map Metered.fresh)).after ops
    ∃ m m' s', s.registry.engines[0]? = some m ∧
      ((start #[willing, unwilling]).after ops).liveOn 0 = 1 ∧
      s.buildContext (pairContext (some 1)) = (s', .error (.engine .contextMissing)) ∧
        s'.registry.engines[0]? = some m' ∧ m'.calls = [.created, .created, .destroyed] ∧
          ∃ more ∈ Registry.undone, m'.calls = m.calls ++ more := by
  intro ops s
  have metered : #[willing, unwilling].map Metered.fresh = #[.fresh willing, .fresh unwilling] := by
    simp only [List.map_toArray, List.map_cons, List.map_nil]
  obtain ⟨_, account⟩ := context_calls_balanced #[willing, unwilling] ops
  obtain ⟨m, listed, _, _, undoes⟩ := account 0 (by decide)
  have refused : (s.buildContext (pairContext (some 1))).2 = .error (.engine .contextMissing) := by
    simp only [s, metered]
    rfl
  obtain ⟨m', listed', left⟩ := undoes _ _ _ (Prod.ext rfl refused)
  have calls : (s.buildContext (pairContext (some 1))).1.registry.calls? 0 =
      some [.created, .created, .destroyed] := by
    simp only [s, metered]
    rfl
  rw [Registry.calls?, listed'] at calls
  exact ⟨m, m', _, listed, by decide, Prod.ext rfl refused, listed', Option.some.inj calls, left⟩

end Session

end BoardEval
