import GraphQuery.Builder

/-!
# Scripts

Calls of builder methods as data. A plan starts from a fresh query or from the builder
that is at hand and runs steps; a step may hold the steps for a nested block or a whole
plan of another query.
-/

namespace GraphQuery

mutual

/-- One call of a builder method. -/
inductive Step where
  | name (n : String)
  | as (var : String)
  | fields (blob : String)
  | select (s : Selection)
  | filter (e : Expr)
  | paginate (c : Cursor)
  | first (n : Int)
  | offset (n : Nat)
  | after (uid : String)
  | order (o : OrderBy)
  | groupBy (predicate : String)
  | facet (f : Facet)
  | cascade (fields : List String)
  | attach (p : Plan)
  | edge (path : String)
  | edgeWith (path : String) (parts : List Part)
  | edgeOf (path : String) (steps : List Step)
  | edgeBy (path : String) (p : Plan)
  | graft (path : String) (p : Plan)

/-- A query described by its start and its steps. Without a start it is the builder at hand. -/
inductive Plan where
  | plan (start : Option Builder) (steps : List Step)

end

instance : Inhabited Step := ⟨.edge ""⟩

instance : Inhabited Plan := ⟨.plan none []⟩

mutual

def Step.apply (q : Builder) : Step → Builder
  | .name n => q.name n
  | .as var => q.as var
  | .fields blob => q.fields blob
  | .select s => q.select s
  | .filter e => q.filter e
  | .paginate c => q.paginate c
  | .first n => q.first n
  | .offset n => q.offset n
  | .after uid => q.after uid
  | .order o => q.order o
  | .groupBy p => q.groupBy p
  | .facet f => q.facet f
  | .cascade fields => q.cascade fields
  | .attach p => q.attach (p.build q)
  | .edge path => q.edge path
  | .edgeWith path parts => q.edgeWith path parts
  | .edgeOf path steps => q.edgeOf path fun r => Step.run r steps
  | .edgeBy path p => q.edgeOf path fun r => p.build r
  | .graft path p => q.graft path (p.build q)

def Step.run (q : Builder) : List Step → Builder
  | [] => q
  | s :: steps => Step.run (s.apply q) steps

/-- The builder of a plan; `q` is the builder at hand. -/
def Plan.build (q : Builder) : Plan → Builder
  | .plan start steps => Step.run (start.getD q) steps

end

/-- The builders at the start and after each step. -/
def Step.trace (q : Builder) : List Step → List Builder
  | [] => [q]
  | s :: steps => q :: Step.trace (s.apply q) steps

end GraphQuery
