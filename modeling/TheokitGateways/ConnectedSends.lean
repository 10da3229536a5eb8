import TheokitGateways.Gateway.ChunkGraphemes
import TheokitGateways.Line.Connections
import TheokitGateways.Matrix.Connections

/-!
# Sends while connected

LINE's adapter and Matrix's keep a client that their `connect` has made, and send
with what they keep. Both send while connected only, in the runs in which every
`connect` that has made its client succeeds, and in no others.
-/

namespace TheokitGateways
open Gateway Transition

/-- The calls of `connect` and `disconnect` settle one after another; a send between them goes to
the platform while connected, and is refused otherwise. -/
theorem sendsWhileConnected_iff (segment : Js.JsString → List Js.JsString)
    (opts : Line.LineAdapterOptions) (kind : Matrix.ClientKind) (clientFactory : Bool) :
    (∀ (as : List Line.Action) (s : Line.Sequential),
      run (Line.Sequential.step segment) (.new opts) as = some s →
        (Always (Line.Sequential.step segment) (Line.Sequential.SendsWhileUp segment) (.new opts)
            as ↔
          Meets (Line.Sequential.step segment) Line.Sequential.Vouched (.new opts) as)) ∧
    ∀ (as : List Matrix.Step) (m : Matrix.MatrixState),
      run (Matrix.MatrixState.sequentialStep kind clientFactory) {} as = some m →
        (Always (Matrix.MatrixState.sequentialStep kind clientFactory)
          Matrix.MatrixState.SendsWhileUp {} as ↔
          Meets (Matrix.MatrixState.sequentialStep kind clientFactory) Matrix.MatrixState.Vouched
            {} as) :=
  ⟨fun _ _ hrun => Line.Sequential.always_sendsWhileUp_iff opts hrun,
    fun _ _ hrun => Matrix.MatrixState.always_sendsWhileUp_iff hrun⟩

/-- LINE's SDK is not there at first; then the adapter connects, and is disconnected. -/
def lineReconnects : List Line.Action :=
  [.connect, .clientMade false, .connect, .clientMade true, .botInfo true, .disconnect]

/-- Matrix's client cannot be made at first; then the adapter connects, and is disconnected. -/
def matrixReconnects : List Matrix.Step :=
  [.act (.connect (.error .undefined)), .act (.connect (.ok ())), .act (.whoami 1 (.ok ())),
    .act (.started 1 (.ok ()) true), .act .disconnect]

/-- A client with every method, and no room that is encrypted. -/
def fullClient : Matrix.ClientKind := ⟨true, some fun _ => .ok false⟩

theorem sendsWhileConnected_iff_reconnects :
    Always (Line.Sequential.step accented) (Line.Sequential.SendsWhileUp accented) (.new {})
        lineReconnects ∧
      Always (Matrix.MatrixState.sequentialStep fullClient true) Matrix.MatrixState.SendsWhileUp {}
        matrixReconnects := by
  have hline : (run (Line.Sequential.step accented) (.new {}) lineReconnects).isSome = true := by
    decide
  have hmatrix : (run (Matrix.MatrixState.sequentialStep fullClient true) {}
      matrixReconnects).isSome = true := by decide +kernel
  obtain ⟨s, hs⟩ := Option.isSome_iff_exists.1 hline
  obtain ⟨m, hm⟩ := Option.isSome_iff_exists.1 hmatrix
  have hboth := sendsWhileConnected_iff accented {} fullClient true
  exact ⟨(hboth.1 lineReconnects s hs).2 (by decide),
    (hboth.2 matrixReconnects m hm).2 (by decide +kernel)⟩

/-- A credential that is rejected leaves the client it was tried with, and sends go through it. -/
theorem rejected_credential_sends :
    (¬ ∀ (segment : Js.JsString → List Js.JsString) (opts : Line.LineAdapterOptions)
      (as : List Line.Action) (s : Line.Sequential),
      run (Line.Sequential.step segment) (.new opts) as = some s → s.SendsWhileUp segment) ∧
    ¬ ∀ (kind : Matrix.ClientKind) (clientFactory : Bool) (as : List Matrix.Step)
      (m : Matrix.MatrixState),
      run (Matrix.MatrixState.sequentialStep kind clientFactory) {} as = some m →
        m.SendsWhileUp := by
  constructor
  · intro h
    have hrun : (run (Line.Sequential.step accented) (.new {})
        [.connect, .clientMade true, .botInfo false]).any
          (fun s => decide (s.view.phase = .down) && s.view.held) = true := by decide
    obtain ⟨s, hs, hview⟩ := (Option.any_eq_true _ _).1 hrun
    rw [Bool.and_eq_true, decide_eq_true_eq] at hview
    have hgated := Line.Sequential.sendsWhileUp_iff_gated.1 (h accented {} _ s hs)
    cases hview.2.symm.trans (hgated hview.1)
  · intro h
    have hrun : (run (Matrix.MatrixState.sequentialStep fullClient true) {}
        [.act (.connect (.ok ())), .act (.whoami 0 (.error .undefined)), .act .disconnect]).any
          (fun m => decide (m.view.phase = .down) && m.view.held) = true := by decide +kernel
    obtain ⟨m, hm, hview⟩ := (Option.any_eq_true _ _).1 hrun
    rw [Bool.and_eq_true, decide_eq_true_eq] at hview
    have hsequential : m.Sequential :=
      invariant Matrix.MatrixState.realizes.inv Matrix.MatrixState.sequential_init hm
    have hgated := (Matrix.MatrixState.sendsWhileUp_iff_gated hsequential).1
      (h fullClient true _ m hm)
    cases hview.2.symm.trans (hgated hview.1)

end TheokitGateways
