import BoardEval.Engine.Basic

/-!
# Engines and shared contexts

A context binds a configuration to at most one engine of each kind. It is shared:
whoever uses it holds it, and its engines' contexts are torn down when the last
holder lets go. An engine may be bound by several contexts; it has one context
of its own all the same.

Building is all or nothing. The engines are asked one after the other, and if
one refuses, those that had agreed are torn down again.
-/

namespace BoardEval

/-- A configuration and the engines it is bound to, by their numbers. -/
structure Context where
  config : ContextConfig
  accelerated : Option Nat
  secondary : Option Nat
  deriving DecidableEq, Repr

namespace Context

/-- The bound engines, the accelerated one first. -/
def engines (c : Context) : List Nat := c.accelerated.toList ++ c.secondary.toList

/-- The engine that a context has bound for a kind. -/
def engineOf? (c : Context) : EngineKind → Option Nat
  | .accelerated => c.accelerated
  | .secondary => c.secondary

/-- Whatever engine serves a kind is one of the engines of the context. -/
theorem engineOf?_mem {c : Context} {kind : EngineKind} {id : Nat}
    (bound : c.engineOf? kind = some id) : id ∈ c.engines := by
  rw [engines, List.mem_append, Option.mem_toList, Option.mem_toList]
  cases kind with
  | accelerated => exact .inl bound
  | secondary => exact .inr bound

end Context

/-- A context and the number of its holders; without holders it is gone. -/
structure SharedContext where
  context : Context
  holders : Nat
  deriving DecidableEq, Repr

/-- All engines and all contexts ever built. -/
structure Registry (ε : Type) where
  engines : Array ε
  contexts : Array SharedContext

namespace Registry

variable {ε : Type} [Engine ε]

/-- Replace an engine. -/
def setEngine (r : Registry ε) (id : Nat) (engine : ε) : Registry ε :=
  { r with engines := r.engines.setIfInBounds id engine }

/-- Tear down the contexts of some engines. -/
def destroyContexts (r : Registry ε) (ids : List Nat) : Registry ε :=
  ids.foldl (fun r id =>
    match r.engines[id]? with
    | some engine => r.setEngine id (Engine.destroyContext engine)
    | none => r) r

/-- Whether every bound engine is of the kind it is bound as. -/
def checkKinds (r : Registry ε) (c : Context) : Except ServiceError Unit :=
  [(EngineKind.accelerated, c.accelerated), (EngineKind.secondary, c.secondary)].forM
    fun (kind, id?) =>
      match id?.bind fun id => r.engines[id]? with
      | none => .ok ()
      | some engine =>
        let capabilities := Engine.capabilities engine
        if capabilities.kind = kind then .ok ()
        else .error (.invalidConfig (.wrongKind capabilities.name kind))

/-- Create the contexts of `ids` in order. If one fails, tear down those created
before it; `created` lists them. -/
def createContexts (r : Registry ε) (config : ContextConfig) (created : List Nat) :
    List Nat → Registry ε × Except EngineError Unit
  | [] => (r, .ok ())
  | id :: rest =>
    match r.engines[id]? with
    | none => r.createContexts config created rest
    | some engine =>
      match Engine.createContext engine config with
      | (engine, .ok ()) => (r.setEngine id engine).createContexts config (created ++ [id]) rest
      | (engine, .error cause) => ((r.setEngine id engine).destroyContexts created, .error cause)

/-- Build a context with one holder. -/
def build (r : Registry ε) (c : Context) : Registry ε × Except ServiceError Nat :=
  match c.config.validate with
  | .error cause => (r, .error (.setup cause))
  | .ok () =>
    if c.engines.isEmpty then (r, .error (.invalidConfig .noEngine))
    else
      match r.checkKinds c with
      | .error cause => (r, .error cause)
      | .ok () =>
        match r.createContexts c.config [] c.engines with
        | (r, .error cause) => (r, .error (.engine cause))
        | (r, .ok ()) => ({ r with contexts := r.contexts.push ⟨c, 1⟩ }, .ok r.contexts.size)

/-- Add a holder. -/
def hold (r : Registry ε) (id : Nat) : Registry ε :=
  { r with contexts := r.contexts.modify id fun s => { s with holders := s.holders + 1 } }

/-- Remove a holder; the last one takes the engines' contexts along. -/
def release (r : Registry ε) (id : Nat) : Registry ε :=
  match r.contexts[id]? with
  | none => r
  | some shared =>
    let r := { r with
      contexts := r.contexts.modify id fun s => { s with holders := s.holders - 1 } }
    if shared.holders = 1 then r.destroyContexts shared.context.engines else r

end Registry

end BoardEval
