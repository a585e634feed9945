import ContentTyping.Store.Basic

/-!
# Stores of either kind

Where the kind of a store is only known at run time, a store of one or the other kind serves as
a store.
-/

namespace ContentTyping

instance {A B : Type} [ObjectStore A] [ObjectStore B] : ObjectStore (A ⊕ B) where
  createOrReuse store supply node :=
    match store with
    | .inl store =>
      let made := ObjectStore.createOrReuse store supply node
      (made.1, .inl made.2.1, made.2.2)
    | .inr store =>
      let made := ObjectStore.createOrReuse store supply node
      (made.1, .inr made.2.1, made.2.2)
  propertyCount store object property :=
    match store with
    | .inl store => ObjectStore.propertyCount store object property
    | .inr store => ObjectStore.propertyCount store object property
  setTypes store object types :=
    match store with
    | .inl store =>
      let made := ObjectStore.setTypes store object types
      (made.1, .inl made.2)
    | .inr store =>
      let made := ObjectStore.setTypes store object types
      (made.1, .inr made.2)
  types store object :=
    match store with
    | .inl store => ObjectStore.types store object
    | .inr store => ObjectStore.types store object

end ContentTyping
