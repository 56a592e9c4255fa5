import SpaceInvaders.Entity.Player.Settle
import SpaceInvaders.Entity.Player.Fire
import SpaceInvaders.Entity.Player.Speed
import SpaceInvaders.Entity.MonsterCluster.ZigZag
import SpaceInvaders.Entity.MonsterCluster.Anchor
import SpaceInvaders.Entity.MonsterCluster.Front
import SpaceInvaders.Entity.MonsterCluster.Remove
import SpaceInvaders.Entity.MonsterCluster.Loaded
import SpaceInvaders.Entity.MonsterCluster.Reach
import SpaceInvaders.HandTracking.Snapshot
import SpaceInvaders.HandTracking.Fist
import SpaceInvaders.HandTracking.Packet
import SpaceInvaders.GameProcessing.HighScore
import SpaceInvaders.GameProcessing.Collisions.Invulnerable
import SpaceInvaders.GameProcessing.Collisions.Resolution
import SpaceInvaders.Main.Lives
import SpaceInvaders.Main.InitialState
import SpaceInvaders.Main.Culling
import SpaceInvaders.Main.Sentinel
import SpaceInvaders.Main.Respawn
import SpaceInvaders.Main.Tunnel
import SpaceInvaders.Mediapipe.Timestamp
import SpaceInvaders.Mediapipe.InputStreamManager.Accepts
import SpaceInvaders.Mediapipe.Throttle
import SpaceInvaders.Mediapipe.OutputStreamPoller.WakeUp
import SpaceInvaders.Mediapipe.CalculatorNode.Rest
import SpaceInvaders.Mediapipe.OutputStreamManager.Mirrors
