import IdlScope.Idl.Declaration

/-!
# Trees — a source file with the files it includes

A document is what one file says itself. A tree is a document with its includes, each of
them a tree of its own: a file that is included twice appears twice. An include that the
source never refers to is marked unused but keeps its place, because references count it.
-/

namespace IdlScope

/-- The content of one source file. -/
structure Document where
  filename : String
  namespaces : List NamespaceDecl
  typedefs : List TypedefDecl
  constants : List ConstantDecl
  enums : List EnumDecl
  structs : List StructDecl
  unions : List StructDecl
  exceptions : List StructDecl
  services : List ServiceDecl

namespace Document

/-- The document of a file that says nothing. -/
def empty (filename : String) : Document :=
  ⟨filename, [], [], [], [], [], [], [], []⟩

/-- The structs, then the unions, then the exceptions. -/
def structLikes (d : Document) : List StructDecl :=
  d.structs ++ d.unions ++ d.exceptions

/-- The namespace declared for exactly this language word. -/
def declaredNamespace? (d : Document) (language : String) : Option String :=
  (d.namespaces.find? (·.language == language)).map NamespaceDecl.name

/-- The namespace for a language, which is the one for `*` if the language has none. -/
def namespaceFor? (d : Document) (language : String) : Option String :=
  (d.declaredNamespace? language).or (d.declaredNamespace? "*")

/-- The last component of the path of a file. -/
def lastComponent (path : String) : String :=
  String.ofList (path.toList.reverse.takeWhile fun c => c != '/' && c != '\\').reverse

/-- The file stem, by which other files qualify the names of this one. -/
def stem (d : Document) : String :=
  let last := lastComponent d.filename
  (Text.before? ".thrift" last).getD last

end Document

/-- An include: the path as it is written, whether it is used, and what it leads to. -/
structure Included (α : Type) where
  path : String
  used : Bool
  content : α

/-- A source file with its includes. -/
structure Tree where
  document : Document
  includes : List (Included Tree)

namespace Tree

/-- The name of the file at the root. -/
def filename (t : Tree) : String := t.document.filename

end Tree

end IdlScope
