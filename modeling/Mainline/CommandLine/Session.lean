import Mainline.CommandLine
import Mainline.Simulation.Run

/-!
# Carrying out a command

A command sets up a node in a world and makes requests to it. What comes of it are the lines to
print, or statements about what failed: the most general one first, each followed by its cause.
-/

namespace Mainline.CommandLine

open Simulation (World)

/-- What comes of a command. -/
abbrev Report := Except (List String) (List String)

/-- Work on a world that may fail with statements, the most general first. -/
abbrev Session := StateT World (Except (List String))

namespace Session

/-- Adds a node with a random id to the world; gives its number. -/
def setUp (settings : Settings) (entryPoints : List Address) : Session Nat := do
  let w ← get
  match w.network.bind settings.bind with
  | .error e => throw ["Failed to bind " ++ settings.bind.toString, (Error.io e).message]
  | .ok _ =>
    let (identity, keys) := Identity.generate settings w.entropy.keys
    let i := w.nodes.length
    let w := { w with entropy := { w.entropy with keys } }.addNode
      identity.localId settings.bind identity.settings
    set (w.setNode i (entryPoints.foldl Node.addEntryPoint (w.node i)))
    return i

/-- Sets the node to work. -/
def start (i : Nat) : Session Unit := do
  match (← get).start i with
  | .error e => throw ["Failed to start DHT", e.message]
  | .ok w => set w

/-- Makes a request to the node and waits for the result; `context` says in general what fails if
the request does. -/
def request (i : Nat) (context : List String) (r : Request) : Session Result := do
  let (w, result) := (← get).perform (World.request i r)
  set w
  match result with
  | none => throw context
  | some (.failed e) => throw (context ++ [e.message])
  | some result => return result

/-- Sets the node to work and joins the network. -/
def join (i : Nat) : Session Unit := do
  start i
  let _ ← request i ["Failed to bootstrap"] .bootstrap

/-- What there is to tell about the node and the nodes that it knows. -/
def statistics (i : Nat) : Session (List String) := do
  let w ← get
  let node := w.node i
  let standings := node.table.members.map (·.standing w.now)
  return [
    "Node ID: " ++ node.localId.toHex,
    "Routing table: " ++ toString standings.length ++ " nodes",
    "  good:         " ++ toString (standings.count .good),
    "  questionable: " ++ toString (standings.count .questionable),
    "  bad:          " ++ toString (standings.count .bad)]

/-- The peers of a torrent, one a line, and how many there are. -/
def peerLines (report : TorrentReport) : List String :=
  report.peers.map Address.toString ++
    [toString report.peers.length ++ " peers, " ++ toString report.tokens.length ++
      " tokens from " ++ toString report.closest.length ++ " nodes"]

/-- Has the node do what the command says. -/
def obey (i : Nat) : Command → Session (List String)
  | .run => do
    join i
    statistics i
  | .peers text =>
    match infoHash text with
    | .error e => throw e.messages
    | .ok infoHash => do
      join i
      match ← request i [] (.getPeers infoHash) with
      | .torrent report => return peerLines report
      | _ => return []
  | .ping address => do
    start i
    match ← request i [address.toString ++ " did not answer"] (.ping address) with
    | .key id => return [address.toString ++ " is " ++ id.toHex]
    | _ => return []

end Session

/-- Carries out a command in a world. -/
def Invocation.carryOut (invocation : Invocation) (w : World) : Report :=
  let options := invocation.options
  let session : Session (List String) := do
    let i ← Session.setUp { bind := options.bind.getD defaultBind } options.bootstrap
    Session.obey i invocation.command
  session.run' w

end Mainline.CommandLine
