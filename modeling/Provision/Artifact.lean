import Provision.Failure

namespace Provision

inductive Classifier where
  | bundle
  | feature
  deriving DecidableEq, Repr

namespace Classifier

def text : Classifier → String
  | .bundle => "osgi.bundle"
  | .feature => "org.eclipse.update.feature"

def ofText? (s : String) : Option Classifier :=
  if s = Classifier.text .bundle then some .bundle
  else if s = Classifier.text .feature then some .feature
  else none

end Classifier

/-- An artifact as declared. The two flags are kept as given. -/
structure Artifact where
  classifier : Classifier
  id : String
  version : Version
  path : String
  isFragment : Value := .bool false
  isSingleton : Value := .bool false

structure Bundle where
  id : String
  version : Version
  location : String
  isFragment : Value := .bool false
  isSingleton : Value := .bool false

structure Feature where
  id : String
  version : Version
  location : String
  deriving DecidableEq, Repr

structure Contents where
  bundles : List Bundle := []
  features : List Feature := []

namespace Contents

def addBundle (b : Bundle) (c : Contents) : Contents := { c with bundles := b :: c.bundles }

def addFeature (f : Feature) (c : Contents) : Contents := { c with features := f :: c.features }

def add (a : Artifact) (location : String) (c : Contents) : Contents :=
  match a.classifier with
  | .bundle => c.addBundle ⟨a.id, a.version, location, a.isFragment, a.isSingleton⟩
  | .feature => c.addFeature ⟨a.id, a.version, location⟩

/-- Locates artifacts in order; the first that cannot be located fails all. -/
def ofArtifacts {ε : Type} (locate : Artifact → Except ε String) :
    List Artifact → Except ε Contents
  | [] => return {}
  | a :: rest => do
    let location ← locate a
    let contents ← ofArtifacts locate rest
    return contents.add a location

end Contents

end Provision
