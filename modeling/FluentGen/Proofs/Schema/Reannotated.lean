import FluentGen.Schema.FieldType

/-!
A schema with other annotations on its fields. What a look-up finds is the same with the other
annotations, and no type in C++ depends on them.
-/

namespace FluentGen.Schema

/-- The field with other annotations. -/
def Field.reannotate (g : Field → List FieldOptions) (f : Field) : Field :=
  { f with annotations := g f }

def Message.reannotate (g : Field → List FieldOptions) (m : Message) : Message :=
  { m with fields := m.fields.map (Field.reannotate g) }

def Pool.reannotate (g : Field → List FieldOptions) (pool : Pool) : Pool :=
  { pool with messages := pool.messages.map (Message.reannotate g) }

variable (g : Field → List FieldOptions) (pool : Pool)

theorem Message.field?_reannotate (m : Message) (name : String) :
    (m.reannotate g).field? name = (m.field? name).map (Field.reannotate g) :=
  List.find?_map

namespace Pool

@[simp] theorem length_messages_reannotate :
    (pool.reannotate g).messages.length = pool.messages.length := by
  simp [reannotate]

theorem message?_reannotate (address : Address) :
    (pool.reannotate g).message? address = (pool.message? address).map (Message.reannotate g) :=
  List.find?_map

@[simp] theorem targetMessage?_reannotate (f : Field) :
    (pool.reannotate g).targetMessage? (f.reannotate g) =
      (pool.targetMessage? f).map (Message.reannotate g) := by
  unfold targetMessage? Field.reannotate
  cases f.target with
  | scalar => rfl
  | enum type => rfl
  | message address => exact message?_reannotate g pool address

theorem mapEntry?_reannotate (f : Field) :
    mapEntry? (pool.reannotate g) (f.reannotate g) =
      (pool.mapEntry? f).map (Message.reannotate g) := by
  unfold mapEntry?
  rw [targetMessage?_reannotate, Option.filter_map]
  rfl

@[simp] theorem isMap_reannotate (f : Field) :
    (pool.reannotate g).isMap (f.reannotate g) = pool.isMap f := by
  unfold isMap
  rw [mapEntry?_reannotate, Option.isSome_map]

@[simp] theorem mapKey?_reannotate (f : Field) :
    (pool.reannotate g).mapKey? (f.reannotate g) =
      (pool.mapKey? f).map (Field.reannotate g) := by
  unfold mapKey?
  rw [mapEntry?_reannotate]
  cases pool.mapEntry? f with
  | none => rfl
  | some entry => exact Message.field?_reannotate g entry "key"

@[simp] theorem mapValue?_reannotate (f : Field) :
    (pool.reannotate g).mapValue? (f.reannotate g) =
      (pool.mapValue? f).map (Field.reannotate g) := by
  unfold mapValue?
  rw [mapEntry?_reannotate]
  cases pool.mapEntry? f with
  | none => rfl
  | some entry => exact Message.field?_reannotate g entry "value"

@[simp] theorem mapValueMessage?_reannotate (f : Field) :
    (pool.reannotate g).mapValueMessage? (f.reannotate g) =
      (pool.mapValueMessage? f).map (Message.reannotate g) := by
  unfold mapValueMessage?
  rw [mapValue?_reannotate]
  cases pool.mapValue? f with
  | none => rfl
  | some value => exact targetMessage?_reannotate g pool value

theorem cppTypeTo_reannotate (depth : Nat) (f : Field) :
    (pool.reannotate g).cppTypeTo depth (f.reannotate g) = pool.cppTypeTo depth f := by
  induction depth generalizing f with
  | zero => rfl
  | succ depth ih =>
    have helement (o : Option Field) :
        ((o.map (Field.reannotate g)).map ((pool.reannotate g).cppTypeTo depth)).getD "" =
          (o.map (pool.cppTypeTo depth)).getD "" := by
      cases o with
      | none => rfl
      | some inner => exact ih inner
    unfold cppTypeTo
    rw [targetMessage?_reannotate]
    cases pool.targetMessage? f with
    | none => rfl
    | some m =>
      simp only [Option.map_some, Message.field?_reannotate, helement]
      rfl

@[simp] theorem cppType_reannotate (f : Field) :
    (pool.reannotate g).cppType (f.reannotate g) = pool.cppType f := by
  unfold cppType
  rw [length_messages_reannotate, cppTypeTo_reannotate]

@[simp] theorem optionsKey_reannotate (o : FieldOptions) (f : Field) :
    (pool.reannotate g).optionsKey o (f.reannotate g) = pool.optionsKey o f := by
  unfold optionsKey
  rw [cppType_reannotate]

end Pool

end FluentGen.Schema
