import DatabaseClient.Error

set_option autoImplicit false

namespace DatabaseClient.Parameters

def pieces (separator : Char) : List Char → List (List Char)
  | [] => [[]]
  | c :: rest =>
    if c = separator then [] :: pieces separator rest
    else match pieces separator rest with
      | [] => [[c]]
      | piece :: more => (c :: piece) :: more

def pair (piece : List Char) : String × String :=
  (String.ofList (piece.takeWhile (· != '=')), String.ofList ((piece.dropWhile (· != '=')).drop 1))

def body : List Char → List Char
  | '?' :: rest => rest
  | text => text

def pairs (text : String) : List (String × String) :=
  ((pieces '&' (body text.toList)).filter (!·.isEmpty)).map pair

end DatabaseClient.Parameters

namespace DatabaseClient

structure InvalidParameter where
  key : String
  value : String
deriving DecidableEq

def InvalidParameter.error (p : InvalidParameter) : Error :=
  .config s!"Invalid {p.key}: {p.value}"

end DatabaseClient
