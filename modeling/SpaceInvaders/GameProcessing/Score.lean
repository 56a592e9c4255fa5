import Mathlib.Data.List.Sort

namespace SpaceInvaders

structure Score where
  score : Int
  enemiesKilled : Int
  deriving DecidableEq, Repr

namespace Score

def new : Score := { score := 0, enemiesKilled := 0 }

def addScore (points : Int) (score : Score) : Score :=
  { score with score := score.score + points }

def addEnemyKilled (score : Score) : Score :=
  { score with enemiesKilled := score.enemiesKilled + 1 }

-- The integers that top10.txt holds, none when there is no such file.
abbrev ScoreFile := Option (List Int)

-- std::sort over the reverse iterators: descending from the front.
def sortDescending (scores : List Int) : List Int :=
  scores.mergeSort fun first second => second ≤ first

-- The values that the loop over std::min(10, size) reads.
def firstTen (scores : List Int) : List Int := scores.take 10

-- std::ofstream in its default mode: the file is there and empty once it is open.
def openForWriting (_ : ScoreFile) : ScoreFile := some []

-- std::ifstream and the loop of >>: what the file holds when it is opened.
def readScores (file : ScoreFile) : List Int := file.getD []

-- outFile is open from the first line of saveTop10 to its last.
def saveTop10 (score : Score) (file : ScoreFile) : ScoreFile :=
  let opened := openForWriting file
  let sortedScores := sortDescending (readScores opened ++ [score.score])
  some (opened.getD [] ++ firstTen sortedScores)

-- The numbered lines that loadTop10 prints, none when the file does not open.
def loadTop10 (file : ScoreFile) : Option (List (Nat × Int)) :=
  file.map fun scores =>
    (firstTen (sortDescending scores)).zipIdx.map fun (value, index) => (index + 1, value)

end Score

end SpaceInvaders
