import LavsCore.Queries.Query

/-!
# Creating products and components

`create_product_query.py` and `create_component_query.py`. Either the row is
inserted or the call fails and leaves everything as it was (`createProduct_run`,
`createComponent_run`).
-/

namespace LavsCore

open Query

/-- The row of a new product. The query names four columns; the base version is the
default of its column. -/
def newProductRow (data : CreateProductModel) (env : Env) : ProductRow where
  id := env.ulid
  name := data.name
  description := data.description
  baseVersion := "0.0.0"
  bumpPolicy := BumpPolicy.default
  createdAt := env.now

/-- `CreateProductQuery.apply`. -/
def createProduct (data : CreateProductModel) (env : Env) : Query ProductResponseModel := do
  match ← select .selectProductByName fun db => db.products.rows.filter fun p =>
      p.name = data.name with
  | _ :: _ =>
    Prog.raise (.conflict s!"A product named '{data.name}' already exists." [("name", data.name)])
  | [] =>
    insert .insertProduct fun db => db.insertProduct (newProductRow data env)
    match ← select .selectCreatedProduct fun db => db.products.lookup env.ulid with
    | row :: _ => return toProductResponse row
    | [] =>
      Prog.raise (.conflict "The product could not be read back after insertion."
        [("id", env.ulid)])

/-- The row of a new component. -/
def newComponentRow (data : CreateComponentModel) (env : Env) : ComponentRow where
  id := env.ulid
  productId := data.productId
  name := data.name
  kind := data.kind

/-- `NotFoundError` of an unknown product. -/
def productNotFound (productId : String) : ApiError :=
  .notFound s!"Product '{productId}' does not exist." [("product_id", productId)]

/-- `NotFoundError` of an unknown component. -/
def componentNotFound (componentId : String) : ApiError :=
  .notFound s!"Component '{componentId}' does not exist." [("component_id", componentId)]

/-- `CreateComponentQuery.apply`. -/
def createComponent (data : CreateComponentModel) (env : Env) :
    Query ComponentResponseModel := do
  match ← select .selectProduct fun db => db.products.lookup data.productId with
  | [] => Prog.raise (productNotFound data.productId)
  | _ :: _ =>
    insert .insertComponent fun db => db.insertComponent (newComponentRow data env)
    return ⟨env.ulid, data.productId, data.name, data.kind⟩

/-! ## What a call alone does -/

inductive CreateProductOutcome (data : CreateProductModel) (env : Env) (w : World) :
    Except ApiError ProductResponseModel → World → Prop
  | failed (error : ApiError) : CreateProductOutcome data env w (.error error) w
  | created {db : Store} (hinsert : w.db.insertProduct (newProductRow data env) = .ok db) :
      CreateProductOutcome data env w (.ok (toProductResponse (newProductRow data env)))
        { w with db := db }

theorem createProduct_run (data : CreateProductModel) (env : Env) (w : World) :
    CreateProductOutcome data env w ((createProduct data env).run w).1
      ((createProduct data env).run w).2 := by
  cases hname : w.db.products.rows.filter fun p => p.name = data.name with
  | cons p rest =>
    simp only [createProduct, Prog.run_bind, run_select, hname, Prog.run_raise]
    exact .failed _
  | nil =>
    cases hinsert : w.db.insertProduct (newProductRow data env) with
    | error refusal =>
      simp only [createProduct, Prog.run_bind, run_select, hname, run_insert, hinsert]
      exact .failed _
    | ok db =>
      have hlookup : db.products.lookup env.ulid = [newProductRow data env] := by
        refine Table.lookup_eq_singleton (r := newProductRow data env) ?_
        rw [(Store.insertProduct_ok hinsert).rows]
        exact List.mem_append_right _ List.mem_cons_self
      simp only [createProduct, Prog.run_bind, run_select, hname, run_insert, hinsert, hlookup,
        Prog.run_pure]
      exact .created hinsert

inductive CreateComponentOutcome (data : CreateComponentModel) (env : Env) (w : World) :
    Except ApiError ComponentResponseModel → World → Prop
  | failed (error : ApiError) : CreateComponentOutcome data env w (.error error) w
  | created {db : Store} (hinsert : w.db.insertComponent (newComponentRow data env) = .ok db) :
      CreateComponentOutcome data env w (.ok ⟨env.ulid, data.productId, data.name, data.kind⟩)
        { w with db := db }

theorem createComponent_run (data : CreateComponentModel) (env : Env) (w : World) :
    CreateComponentOutcome data env w ((createComponent data env).run w).1
      ((createComponent data env).run w).2 := by
  cases hproduct : w.db.products.lookup data.productId with
  | nil =>
    simp only [createComponent, Prog.run_bind, run_select, hproduct, Prog.run_raise]
    exact .failed _
  | cons p rest =>
    cases hinsert : w.db.insertComponent (newComponentRow data env) with
    | error refusal =>
      simp only [createComponent, Prog.run_bind, run_select, hproduct, run_insert, hinsert]
      exact .failed _
    | ok db =>
      simp only [createComponent, Prog.run_bind, run_select, hproduct, run_insert, hinsert,
        Prog.run_pure]
      exact .created hinsert

end LavsCore
