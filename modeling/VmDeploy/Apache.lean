import VmDeploy.Config
import VmDeploy.Exceptions
import VmDeploy.Python.Dict

/-! `apache.py`: the virtual host of the load balancer. -/

set_option autoImplicit false

namespace VmDeploy.Apache

open Python

def balancerName : String := "apcluster"

def balancerMember (backend : HostConfig) (address : String) : String :=
  s!"        BalancerMember \"http://{address}:{backend.httpPort}\" route={backend.hostname}"

def noAddress (backend : HostConfig) : PyError :=
  .vmDeployError (s!"No resolved address for backend {backend.hostname}; " ++
    "cannot build a complete balancer pool")

def balancerVhost (config : ClusterConfig) (members : List String) : String :=
  s!"# Managed by vmdeploy. Manual edits are overwritten on redeploy.
<VirtualHost *:{config.jump.httpPort}>
    ServerName {config.jump.hostname}

    ProxyRequests Off
    ProxyPreserveHost On

    <Proxy \"balancer://{balancerName}\">
" ++ "\n".intercalate members ++ s!"
        # byrequests with no stickysession: consecutive requests from one
        # client must land on different members for the suite to pass.
        ProxySet lbmethod=byrequests
    </Proxy>

    # Exclude the manager endpoint from proxying so it is served locally.
    ProxyPass        \"/balancer-manager\" \"!\"
    ProxyPass        \"/\" \"balancer://{balancerName}/\"
    ProxyPassReverse \"/\" \"balancer://{balancerName}/\"

    <Location \"/balancer-manager\">
        SetHandler balancer-manager
        Require local
        Require ip 192.168.0.0/16
    </Location>

    ErrorLog $\x7bAPACHE_LOG_DIR\x7d/{config.jump.hostname}-error.log
    CustomLog $\x7bAPACHE_LOG_DIR\x7d/{config.jump.hostname}-access.log combined
</VirtualHost>
"

/-- The loop over the backends: one line for each, in their order. -/
def memberLines (members : Dict String String) : List HostConfig → Except PyError (List String)
  | [] => .ok []
  | backend :: rest => do
      let address := (members.get? backend.hostname).getD ""
      if address = "" then
        .error (noAddress backend)
      else do
        let lines ← memberLines members rest
        .ok (balancerMember backend address :: lines)

def renderBalancerVhost (config : ClusterConfig) (members : Dict String String) :
    Except PyError String := do
  let lines ← memberLines members config.backends
  .ok (balancerVhost config lines)

theorem memberLines_ok {members : Dict String String} {address : HostConfig → String}
    {backends : List HostConfig}
    (resolved : ∀ backend ∈ backends, members.get? backend.hostname = some (address backend))
    (visible : ∀ backend ∈ backends, address backend ≠ "") :
    memberLines members backends =
      .ok (backends.map fun backend => balancerMember backend (address backend)) := by
  induction backends with
  | nil => rfl
  | cons backend rest ih =>
    obtain ⟨here, later⟩ := List.forall_mem_cons.mp resolved
    obtain ⟨shown, others⟩ := List.forall_mem_cons.mp visible
    rw [memberLines, here, Option.getD_some, if_neg shown, ih later others]
    rfl

end VmDeploy.Apache
