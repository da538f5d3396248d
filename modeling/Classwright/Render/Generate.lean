import Classwright.Render.ActionScript
import Classwright.Render.CSharp
import Classwright.Render.JavaScript
import Classwright.Render.Skeleton
import Classwright.Text.Identifier

/-!
# Generated files

`Backend.generate` makes the file of every entity of a model and then the index, if
there is to be one. It stops at the first entity whose names cannot be used
(`checkNames`), or whose template fails for want of an index.
-/

namespace Classwright

/-- The hand-written texts of the three kinds of entities. -/
structure Fragments where
  /-- The texts for objects. -/
  objects : Catalog := .empty
  /-- The texts for components. -/
  components : Catalog := .empty
  /-- The texts for results. -/
  results : Catalog := .empty
deriving Repr, Inhabited

/-- The texts of a kind of entities. -/
def Fragments.forKind (f : Fragments) : EntityKind → Catalog
  | .object => f.objects
  | .component => f.components
  | .result => f.results

/-- The texts for an entity. -/
def Fragments.hooksFor (f : Fragments) (e : Entity) : Hooks :=
  (f.forKind e.kind).hooksFor e.name

/-- The parts of an entity's name that become names of classes, files and directories. -/
def Entity.nameParts (e : Entity) : List String :=
  match e.inNamespace?, e.method? with
  | some ns, some method => [ns, method]
  | _, _ => [e.name]

/-- What is wrong with the names of an entity, if anything. -/
def nameFault? (e : Entity) : Option RenderFault :=
  match e.nameParts.find? fun part => !Text.isIdentifier part with
  | some part => some (.badName part)
  | none => (e.properties.find? fun p => !Text.isIdentifier p.name).map fun p => .badProperty p.name

/-- Refuses an entity whose names cannot be used. -/
def checkNames (e : Entity) : Outcome Unit :=
  match nameFault? e with
  | none => .ok ()
  | some fault => .error (.render e.name fault)

namespace Backend

/-- The parts of the file of an entity. -/
def template (b : Backend) (l : Layout) (o : Options) (e : Entity) : Except RenderFault Template :=
  match b with
  | .javaScript => JavaScript.template l o e
  | .cSharp => CSharp.template l o e
  | .actionScript => ActionScript.template l o e

/-- The lines of the index file. -/
def indexLines (b : Backend) (l : Layout) (o : Options) (path : Path) (i : Index) : List String :=
  match b with
  | .javaScript => JavaScript.indexLines l o path i
  | .cSharp => CSharp.indexLines o i
  | .actionScript => ActionScript.indexLines o i

/-- The file of an entity, with hand-written texts. -/
def renderEntity (b : Backend) (l : Layout) (o : Options) (e : Entity) (h : Hooks) :
    Outcome SourceFile := do
  let t ← (b.template l o e).mapError (Failure.render e.name)
  return ⟨l.fileFor e (o.className e.name), t.fill h⟩

/-- The index file. -/
def renderIndex (b : Backend) (l : Layout) (o : Options) (i : Index) : Outcome SourceFile :=
  match l.indexFile? with
  | none => .error (.render "ObjectIndex" .noIndexFile)
  | some path => .ok ⟨path, Text.unlines (b.indexLines l o path i)⟩

/-- The file of an entity whose names can be used. -/
def generateEntity (b : Backend) (l : Layout) (o : Options) (f : Fragments) (e : Entity) :
    Outcome SourceFile := do
  checkNames e
  b.renderEntity l o e (f.hooksFor e)

/-- The files of a model: one for each entity, and the index if it has a place. -/
def generate (b : Backend) (l : Layout) (o : Options) (f : Fragments) (m : Model) :
    Outcome (List SourceFile) := do
  let files ← m.entities.mapM (b.generateEntity l o f)
  match l.indexFile? with
  | none => return files
  | some _ => return files ++ [← b.renderIndex l o (.ofModel m)]

end Backend

/-- The file at a path, compared by components. -/
def fileAt? (files : List SourceFile) (path : Path) : Option SourceFile :=
  files.find? fun file => file.path.same path

end Classwright
