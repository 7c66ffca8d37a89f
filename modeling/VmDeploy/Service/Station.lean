import VmDeploy.Remote.Session
import VmDeploy.Service.Build

/-! The guest that holds the compiled service, and the automation host's sources.

Local files answer a read in any way at any time, so they may be edited at any
moment. On the guest a command that fails may leave anything in the file it writes;
one that succeeds did what it says. Nobody else writes to the install directory,
which lies outside the build directory, and a failing `cat` prints nothing. -/

set_option autoImplicit false

open Effects Python Shell

namespace VmDeploy.Service

open Remote

/-- The files under `/tmp`, the two installed files, whether an installation of the
binary has not been followed by its stamp, and every read of a local source. -/
structure Station where
  files : String → Option Bytes
  binary : Option Bytes
  stamp : Option String
  unstamped : Bool
  reads : List (String × Bytes)

/-- What a command does to the station. -/
inductive Action where
  | copy (source target : String)
  | compile
  | install (source : String)
  | stamp (digest : String)
  | readStamp
  | testBinary
  | removeTree (dir : String)
  | remove (path : String)
  | other

def actionOf (remoteDir : String) (command : Simple) : Action :=
  match command.words with
  | ["install", "-D", "-m", _, source, target] => .copy source target
  | ["install", "-m", _, source, target] =>
      if target = s!"{remoteDir}/{serviceName}" then .install source else .other
  | ["sh", "-c", "'printf", "%s", digest, ">", target] =>
      if target = s!"{remoteDir}/{sourceHashFile}'" then .stamp digest else .other
  | ["cat", target] => if target = s!"{remoteDir}/{sourceHashFile}" then .readStamp else .other
  | ["test", "-x", target] => if target = s!"{remoteDir}/{serviceName}" then .testBinary else .other
  | ["rm", "-rf", dir] => .removeTree dir
  | ["rm", "-f", path] => .remove path
  | words => if words = goBuild.words then .compile else .other

/-- What one request meets on the guest: results, what failing commands leave, and
whether the transport fails. -/
structure GuestChoice where
  output : Event → Output
  debris : Option Bytes
  stampDebris : Option String
  survives : String → Bool
  lost : Option String
  transfer : Except String Unit
  random : Bytes

def within (dir path : String) : Bool :=
  (afterPrefix? dir.toList path.toList).isSome

def treeAt (files : String → Option Bytes) : Option (List Bytes) :=
  hashFiles.mapM fun name => files (buildPath name)

variable (compile : List Bytes → Bytes) (remoteDir : String)

/-- A command whose input is missing fails, whatever else would have been. -/
def Output.failed (output : Output) : Output :=
  { output with exitStatus := 1, stdout := "" }

def Station.put (station : Station) (path : String) (content : Option Bytes) : Station :=
  { station with files := Function.update station.files path content }

def Station.act (x : GuestChoice) (output : Output) (station : Station) :
    Action → Output × Station
  | .copy source target =>
      if output.exitStatus = 0 then
        match station.files source with
        | some content => (output, station.put target (some content))
        | none => (Output.failed output, station)
      else (output, station.put target x.debris)
  | .compile =>
      if output.exitStatus = 0 then
        match treeAt station.files with
        | some contents => (output, station.put (buildPath serviceName) (some (compile contents)))
        | none => (Output.failed output, station)
      else (output, station.put (buildPath serviceName) x.debris)
  | .install source =>
      if output.exitStatus = 0 then
        match station.files source with
        | some content => (output, { station with binary := some content, unstamped := true })
        | none => (Output.failed output, { station with unstamped := true })
      else (output, { station with binary := x.debris, unstamped := true })
  | .stamp digest =>
      if output.exitStatus = 0 then
        (output, { station with stamp := some digest, unstamped := false })
      else (output, { station with stamp := x.stampDebris, unstamped := true })
  | .readStamp =>
      if output.exitStatus = 0 then
        match station.stamp with
        | some digest => ({ output with stdout := digest }, station)
        | none => (Output.failed output, station)
      else ({ output with stdout := "" }, station)
  | .testBinary =>
      if output.exitStatus = 0 ∧ station.binary = none then (Output.failed output, station)
      else (output, station)
  | .removeTree dir =>
      (output, { station with
        files := fun path =>
          if within dir path && (output.exitStatus = 0 || !x.survives path) then none
          else station.files path })
  | .remove path =>
      if output.exitStatus = 0 then (output, station.put path none) else (output, station)
  | .other => (output, station)

def GuestChoice.perform (x : GuestChoice) : Perform Station
  | .opens who command, station => (x.output (.opens who command), station)
  | .runs who command, station =>
      station.act compile x (x.output (.runs who command)) (actionOf remoteDir command)

def stationGuest : Environment Station GuestChoice where
  perform x := x.perform compile remoteDir
  lost := GuestChoice.lost
  transfer
    | x, .exec _ _ _, station => (.error (x.lost.getD ""), station)
    | _, .getenv _, station => (none, station)
    | x, .openSftp, station => (x.transfer, station)
    | x, .sftpWrite path payload, station =>
        (x.transfer, station.put path (if x.transfer.isOk then some payload else x.debris))
    | x, .sftpPut _ path, station => (x.transfer, station.put path x.debris)
    | x, .urandom _, station => (x.random, station)

def Station.record (station : Station) (path : String) : Except String Bytes → Station
  | .ok content => { station with reads := station.reads ++ [(path, content)] }
  | .error _ => station

def localStep : Step localSignature Station ((op : LocalOp) → op.Reply)
  | x, .readBytes path, station => (x (.readBytes path), station.record path (x (.readBytes path)))
  | x, op, station => (x op, station)

abbrev stationStep (policy : Policy) (env : Option String) :
    Step (remoteSignature.sum localSignature) Station
      (GuestChoice × ((op : LocalOp) → op.Reply)) :=
  ((stationGuest compile remoteDir).step policy env).sum localStep

section Actions

@[simp] theorem action_putBytes (mode source target : String) :
    actionOf remoteDir (program ["install", "-D", "-m", mode, source, target]).head =
      .copy source target :=
  rfl

@[simp] theorem action_goBuild : actionOf remoteDir goBuild = .compile :=
  rfl

@[simp] theorem action_cd : actionOf remoteDir compileLine.head = .other :=
  rfl

@[simp] theorem action_installBinary :
    actionOf remoteDir (installBinary remoteDir).head = .install (buildPath serviceName) :=
  if_pos rfl

@[simp] theorem action_writeStamp (digest : String) :
    actionOf remoteDir (writeStamp remoteDir digest).head = .stamp digest :=
  if_pos rfl

@[simp] theorem action_catSourceHash :
    actionOf remoteDir (catSourceHash remoteDir).head = .readStamp := by
  have path : s!"{remoteDir}/.source-hash" = s!"{remoteDir}/{sourceHashFile}" := by
    rw [sourceHashFile, String.append_assoc]
    rfl
  rw [actionOf, catSourceHash]
  exact if_pos path

@[simp] theorem action_testBinary :
    actionOf remoteDir (testBinary remoteDir).head = .testBinary :=
  if_pos rfl

@[simp] theorem action_chown : actionOf remoteDir chownBuildDir.head = .other :=
  rfl

@[simp] theorem action_makeRemoteDir :
    actionOf remoteDir (makeRemoteDir remoteDir).head = .other :=
  rfl

end Actions

def Station.SameInstall (station later : Station) : Prop :=
  later.binary = station.binary ∧ later.stamp = station.stamp ∧
    later.unstamped = station.unstamped

def Action.installs : Action → Bool
  | .install _ | .stamp _ => true
  | _ => false

theorem act_reads (x : GuestChoice) (output : Output) (station : Station) (action : Action) :
    (station.act compile x output action).2.reads = station.reads := by
  cases action <;> simp only [Station.act, Station.put] <;> repeat (first | rfl | split)

theorem act_sameInstall (x : GuestChoice) (output : Output) (station : Station) {action : Action}
    (other : action.installs = false) :
    station.SameInstall (station.act compile x output action).2 := by
  cases action with
  | install source => cases other
  | stamp digest => cases other
  | _ =>
    simp only [Station.act, Station.put]
    repeat (first | exact ⟨rfl, rfl, rfl⟩ | split)

end VmDeploy.Service
