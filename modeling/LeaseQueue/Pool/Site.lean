/-
The store as the parts of a scheduler share it:

* `Site`: a store, with the notifications of its commits that are still on their
  way and those that have arrived;
* `Site.settle`: what a call of the store leaves behind;
* `Site.source`: the store as a source of claims.
-/
import LeaseQueue.Scheduler.Scanner
import LeaseQueue.Store

namespace LeaseQueue

/-- A store and the notifications of its commits, oldest first. -/
structure Site where
  store : Store
  channel : Channel
  inFlight : List Channel := []
  delivered : List Channel := []

namespace Site

/-- What a call leaves behind: the next store, and its notifications on their way. -/
def settle {ε α : Type} (site : Site) (reply : Store.Reply ε α) : Site :=
  { site with store := reply.store, inFlight := site.inFlight ++ reply.published }

/-- The notification that arrives next, and the site behind it. -/
def arrive? (site : Site) : Option (Channel × Site) :=
  match site.inFlight with
  | [] => none
  | channel :: rest =>
    some (channel, { site with inFlight := rest, delivered := site.delivered ++ [channel] })

/-- A claim on the store, which answers at once. -/
def claim (site : Site) (types : List String) (worker : WorkerId) (lease : Duration) :
    Scanner.ClaimReply Site :=
  let reply := site.store.claim types worker lease
  ⟨0, reply.answer, site.settle reply⟩

/-- Fails a task that no handler can run. -/
def failUnhandled (site : Site) (task : ClaimedTask) (message : String) : Site :=
  site.settle (site.store.finish site.channel task.id task.worker (.failed message))

/-- The store as a source of claims. -/
def source : Scanner.ClaimSource Site := ⟨claim, failUnhandled⟩

end Site
end LeaseQueue
