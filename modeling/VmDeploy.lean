import VmDeploy.Setup.Passwords
import VmDeploy.Service.Current
import VmDeploy.Service.Deploy
import VmDeploy.Service.Toolchain
import VmDeploy.Service.Probes
import VmDeploy.Service.Archive
import VmDeploy.Inventory.Agreement
import VmDeploy.Inventory.Tampering
import VmDeploy.Inventory.Writers
import VmDeploy.Inventory.Durability
import VmDeploy.Inventory.Registration
import VmDeploy.Seed.Render
import VmDeploy.Provision.GoldenTemplate
import VmDeploy.Provision.Membership
import VmDeploy.Provision.Readiness
import VmDeploy.Provision.Refusal
import VmDeploy.Provision.Teardown
import VmDeploy.Remote.Sudo
import VmDeploy.Remote.Staging
import VmDeploy.Apache.Ports
import VmDeploy.Config.Merge
import VmDeploy.Setup.Keys
import VmDeploy.Setup.Disabled
import VmDeploy.Setup.CloudInit
import VmDeploy.Setup.Quoting
import VmDeploy.Setup.Handover
import VmDeploy.Setup.Preserved
import VmDeploy.Preflight.Graceful
import VmDeploy.Image.Pull
import VmDeploy.Seed.Validators
import VmDeploy.Service.Fingerprint
import VmDeploy.Inventory.Decryption
import VmDeploy.Inventory.KeyFile
import VmDeploy.Inventory.Handlers
import VmDeploy.VirtualBox.PowerOff
import VmDeploy.VirtualBox.Selection
import VmDeploy.VirtualBox.OpticalSlot
import VmDeploy.Inventory.Concurrent
import VmDeploy.Website.Stamped
