import ResolverRace.Service

/-!
# Operations on a service

What callers ask of a service, and what time does to it, one after another.

* `Service.serve` — the service after an operation.
* `Service.serveAll` — the service after some operations.
-/

namespace ResolverRace
namespace Service

/-- What can be asked of a service. Pools are made with random words of each call's own. -/
inductive Operation where
  | reload (chance : Random.Stream)
  | selectSource (source : Source) (chance : Random.Stream)
  | upsertList (list : UserList) (chance : Random.Stream)
  | removeList (id : String) (chance : Random.Stream)
  | addEntry (id entry : String) (chance : Random.Stream)
  | removeEntry (id : String) (address : Address) (chance : Random.Stream)
  | preview (source : Source) (chance : Random.Stream)
  | notify (address : Address) (worked : Bool)
  | start (params : Params)
  | cancel
  | acknowledge
  | advance (span : Duration)
  | wait

/-- The service after an operation, whatever its answer is. -/
def serve (probe : Probe) (s : Service) : Operation → Service
  | .reload chance => (s.reload chance).1
  | .selectSource source chance => (s.selectSource source chance).1
  | .upsertList list chance => (s.upsertList list chance).1
  | .removeList id chance => (s.removeList id chance).1
  | .addEntry id entry chance => (s.addEntry id entry chance).1
  | .removeEntry id address chance => (s.removeEntry id address chance).1
  | .preview _ _ => s
  | .notify address worked => (s.notify address worked).1
  | .start params => (s.start probe params).1
  | .cancel => s.cancel.1
  | .acknowledge => s.acknowledge.1
  | .advance span => (s.advance probe span).1
  | .wait => (s.wait probe).1

def serveAll (probe : Probe) (s : Service) (operations : List Operation) : Service :=
  operations.foldl (serve probe) s

end Service
end ResolverRace
