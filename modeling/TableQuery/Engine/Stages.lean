import TableQuery.Engine

/-!
The tables that a query passes through, one for each stage.
-/

namespace TableQuery.Engine

variable {σ : Type} [Store σ]

/-- The results of joining further tables one after another, up to and including
the first failure. -/
def joinStages (engine : Engine σ) : Table → List Join → List (Except ExecError Table)
  | _, [] => []
  | left, join :: joins =>
    match engine.join left join with
    | .ok joined => .ok joined :: engine.joinStages joined joins
    | .error error => [.error error]

/-- The results of the projection, of every join, of the filter and of the
selection, up to and including the first failure. -/
def stages (engine : Engine σ) (query : Query) : List (Except ExecError Table) :=
  match engine.project query.select.source with
  | .error error => [.error error]
  | .ok projected =>
    let joins := engine.joinStages projected query.joins
    match query.joins.foldlM engine.join projected with
    | .error _ => .ok projected :: joins
    | .ok joined =>
      let restricted := joined.restrict query.condition
      .ok projected :: joins ++ [.ok restricted, .ok (restricted.select query.select.fields)]

end TableQuery.Engine
