import Uncaught.ClassRecord
import Uncaught.Data.Table

/-
  This file defines what is known of the Java platform without
  reading its sources: the types that need no import, the
  standard exceptions, and what some library methods throw.

  Key definitions include:
    * `Platform.langTypes`
    * `Platform.exceptionParents`
    * `Platform.methods`
    * `Platform.classes`
    * `Platform.names`
    * `Platform.isKnown`
    * `Platform.externalSignature`
-/

namespace Uncaught

namespace Platform

------------------------------------------------------------
-- Data
------------------------------------------------------------

/- Types of `java.lang`, which are visible everywhere. -/
def langTypes : List String :=
  ["Object", "String", "StringBuilder", "StringBuffer", "Math",
    "System", "Thread", "Runnable", "Integer", "Long", "Short",
    "Byte", "Double", "Float", "Boolean", "Character", "Number",
    "Class", "ClassLoader", "Iterable", "Comparable",
    "AutoCloseable", "CharSequence", "Enum", "Record", "Void",
    "Process", "ProcessBuilder", "Runtime"]

/- The standard exceptions, each with the class it extends. -/
def exceptionParents : List (String × String) := [
    ("java.lang.Throwable", "java.lang.Object"),
    ("java.lang.Exception", "java.lang.Throwable"),
    ("java.lang.Error", "java.lang.Throwable"),
    ("java.lang.RuntimeException", "java.lang.Exception"),
    ("java.lang.IllegalArgumentException",
      "java.lang.RuntimeException"),
    ("java.lang.NumberFormatException",
      "java.lang.IllegalArgumentException"),
    ("java.lang.IllegalStateException",
      "java.lang.RuntimeException"),
    ("java.lang.NullPointerException",
      "java.lang.RuntimeException"),
    ("java.lang.ArithmeticException",
      "java.lang.RuntimeException"),
    ("java.lang.ClassCastException",
      "java.lang.RuntimeException"),
    ("java.lang.UnsupportedOperationException",
      "java.lang.RuntimeException"),
    ("java.lang.IndexOutOfBoundsException",
      "java.lang.RuntimeException"),
    ("java.lang.ArrayIndexOutOfBoundsException",
      "java.lang.IndexOutOfBoundsException"),
    ("java.lang.StringIndexOutOfBoundsException",
      "java.lang.IndexOutOfBoundsException"),
    ("java.lang.SecurityException",
      "java.lang.RuntimeException"),
    ("java.lang.InterruptedException", "java.lang.Exception"),
    ("java.lang.CloneNotSupportedException",
      "java.lang.Exception"),
    ("java.lang.ReflectiveOperationException",
      "java.lang.Exception"),
    ("java.lang.ClassNotFoundException",
      "java.lang.ReflectiveOperationException"),
    ("java.lang.NoSuchMethodException",
      "java.lang.ReflectiveOperationException"),
    ("java.lang.InstantiationException",
      "java.lang.ReflectiveOperationException"),
    ("java.lang.IllegalAccessException",
      "java.lang.ReflectiveOperationException"),
    ("java.lang.OutOfMemoryError", "java.lang.Error"),
    ("java.lang.StackOverflowError", "java.lang.Error"),
    ("java.lang.AssertionError", "java.lang.Error"),
    ("java.io.IOException", "java.lang.Exception"),
    ("java.io.FileNotFoundException", "java.io.IOException"),
    ("java.io.EOFException", "java.io.IOException"),
    ("java.io.UncheckedIOException",
      "java.lang.RuntimeException"),
    ("java.io.UnsupportedEncodingException",
      "java.io.IOException"),
    ("java.net.MalformedURLException", "java.io.IOException"),
    ("java.net.URISyntaxException", "java.lang.Exception"),
    ("java.net.SocketException", "java.io.IOException"),
    ("java.net.UnknownHostException", "java.io.IOException"),
    ("java.nio.file.NoSuchFileException",
      "java.io.IOException"),
    ("java.sql.SQLException", "java.lang.Exception"),
    ("java.text.ParseException", "java.lang.Exception"),
    ("java.util.NoSuchElementException",
      "java.lang.RuntimeException"),
    ("java.util.ConcurrentModificationException",
      "java.lang.RuntimeException"),
    ("java.util.concurrent.ExecutionException",
      "java.lang.Exception"),
    ("java.util.concurrent.TimeoutException",
      "java.lang.Exception")]

/- A library method with its parameters and exceptions. -/
structure Method where
  owner : String
  name : String
  params : List String
  throws : List String

/- Library methods that declare exceptions. -/
def methods : List Method := [
    ⟨"java.lang.Thread", "sleep", ["long"],
      ["java.lang.InterruptedException"]⟩,
    ⟨"java.lang.Thread", "join", [],
      ["java.lang.InterruptedException"]⟩,
    ⟨"java.lang.Object", "wait", [],
      ["java.lang.InterruptedException"]⟩,
    ⟨"java.lang.Class", "forName", ["String"],
      ["java.lang.ClassNotFoundException"]⟩,
    ⟨"java.lang.Integer", "parseInt", ["String"],
      ["java.lang.NumberFormatException"]⟩,
    ⟨"java.lang.Long", "parseLong", ["String"],
      ["java.lang.NumberFormatException"]⟩,
    ⟨"java.io.FileReader", "<init>", ["String"],
      ["java.io.FileNotFoundException"]⟩,
    ⟨"java.io.FileInputStream", "<init>", ["String"],
      ["java.io.FileNotFoundException"]⟩,
    ⟨"java.io.FileOutputStream", "<init>", ["String"],
      ["java.io.FileNotFoundException"]⟩,
    ⟨"java.io.BufferedReader", "readLine", [],
      ["java.io.IOException"]⟩,
    ⟨"java.io.BufferedReader", "close", [],
      ["java.io.IOException"]⟩,
    ⟨"java.io.Reader", "read", [],
      ["java.io.IOException"]⟩,
    ⟨"java.io.Reader", "close", [],
      ["java.io.IOException"]⟩,
    ⟨"java.io.InputStream", "read", [],
      ["java.io.IOException"]⟩,
    ⟨"java.io.InputStream", "close", [],
      ["java.io.IOException"]⟩,
    ⟨"java.io.OutputStream", "write", ["int"],
      ["java.io.IOException"]⟩,
    ⟨"java.io.Writer", "write", ["String"],
      ["java.io.IOException"]⟩,
    ⟨"java.io.Writer", "close", [],
      ["java.io.IOException"]⟩,
    ⟨"java.net.URL", "<init>", ["String"],
      ["java.net.MalformedURLException"]⟩,
    ⟨"java.net.URI", "<init>", ["String"],
      ["java.net.URISyntaxException"]⟩,
    ⟨"java.nio.file.Files", "readAllLines", ["Path"],
      ["java.io.IOException"]⟩,
    ⟨"java.nio.file.Files", "readString", ["Path"],
      ["java.io.IOException"]⟩,
    ⟨"java.nio.file.Files", "delete", ["Path"],
      ["java.io.IOException"]⟩,
    ⟨"java.text.DateFormat", "parse", ["String"],
      ["java.text.ParseException"]⟩,
    ⟨"java.util.concurrent.Future", "get", [],
      ["java.lang.InterruptedException",
        "java.util.concurrent.ExecutionException"]⟩]

------------------------------------------------------------
-- Classes
------------------------------------------------------------

/- The root of all classes. -/
def rootClass : String :=
  "java.lang.Object"

/-
  The records of the standard exceptions, in order, after the
  record of the root of all classes.
-/
def classes : List ClassRecord :=
  { name := rootClass }
    :: (exceptionParents.mergeSort
      (fun a b => decide (a.1 ≤ b.1))).map fun (name, parent) =>
        { name, superClass := some parent }

------------------------------------------------------------
-- Names
------------------------------------------------------------

/- The package of a qualified name. -/
def packageOf
    (name : String) : Option String :=
  (Text.cutLast '.' name).map Prod.fst

/- The last part of a name. -/
def simpleName
    (name : String) : String :=
  match Text.cutLast '.' name with
  | some (_, last) => last
  | none => name

/- The package of the types that are visible everywhere. -/
def langPackage : String :=
  "java.lang"

/- The known types by their simple names; the first one counts. -/
def names : Table String String :=
  let lang := langTypes.map fun n => (n, langPackage ++ "." ++ n)
  let others := methods.map Method.owner
    ++ exceptionParents.map Prod.fst
  let known := lang ++ others.map fun n => (simpleName n, n)
  known.foldl (fun t e => t.insertNew e.1 e.2) .empty

/- The qualified names of the known types. -/
def qualifiedNames : List String :=
  (names.values ++ methods.map Method.owner).eraseDups

/- Whether a qualified name is a known type. -/
def isKnown
    (name : String) : Bool :=
  qualifiedNames.contains name

------------------------------------------------------------
-- Signatures
------------------------------------------------------------

/-
  The signature of a method whose source is not at hand. Of a
  method that is not known the parameter types are not known
  either, and it declares nothing.
-/
def externalSignature
    (owner name : String)
    (arity : Int) : Signature :=
  let known := methods.find? fun m =>
    m.owner == owner && m.name == name
      && (m.params.length : Int) == arity
  match known with
  | some m =>
      { owner
        name
        params := m.params
        package := packageOf owner
        throws := m.throws }
  | none =>
      { owner
        name
        params := List.replicate arity.toNat "?"
        package := packageOf owner }

end Platform

end Uncaught
