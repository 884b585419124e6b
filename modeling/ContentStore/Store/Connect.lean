import ContentStore.Client
import ContentStore.Store

/-!
Contract: opening a store over the bucket that settings name.

Owns: `Store.connect`, which refuses unusable settings before any request is
made, and creates the bucket if it does not exist.  A bucket that cannot be
created is no failure yet.
-/

namespace ContentStore.Store

variable {Server : Type} [Http.Server Server]

def linkTo (settings : Settings) (clock : Calendar.Instant) (server : Server) : Link Server :=
  ⟨Client.ofSettings settings, clock, server⟩

/-- Open the store of a repository; the server is given back as it was left. -/
def connect (repository : String) (settings : Settings) (clock : Calendar.Instant)
    (server : Server) : Except StoreError (Store (Link Server)) × Server :=
  match settings.validate, settings.cacheBytes with
  | .error cause, _ | _, .error cause => (.error cause, server)
  | .ok (), .ok budget =>
    let (created, link) := (linkTo settings clock server).createBucket
    (created.map fun _ => overRemote repository budget link, link.server)

end ContentStore.Store
