import GenericC.Text.CodeTable

/-! The canonical decompositions and combining classes of Unicode 15. -/

namespace GenericC.Text

/-- Each code point with a canonical decomposition, followed by it. -/
def decompositionTable : CodeTable := .runs [
  "+5c 1t-0 1t-1 1t-2 1t-3 1t-8 1t-a +5j 1v-13 1x-0 1x-1 1x-2 1x-8 21-0 21-1 21-2 21-8 +5t 26-3 27-0 27-1 27-2 27-3",
  "27-8 +61 2d-0 2d-1 2d-2 2d-8 2h-1 +68 2p-0 2p-1 2p-2 2p-3 2p-8 2p-a +6f 2r-13 2t-0 2t-1 2t-2 2t-8 2x-0 2x-1 2x-2",
  "2x-8 +6p 32-3 33-0 33-1 33-2 33-3 33-8 +6x 39-0 39-1 39-2 39-8 3d-1 +73 3d-8 1t-4 2p-4 1t-6 2p-6 1t-14 2p-14 1v-1",
  "2r-1 1v-2 2r-2 1v-7 2r-7 1v-c 2r-c 1w-c 2s-c +7m 1x-4 2t-4 1x-6 2t-6 1x-7 2t-7 1x-14 2t-14 1x-c 2t-c 1z-2 2v-2",
  "1z-6 2v-6 1z-7 2v-7 1z-13 2v-13 20-2 2w-2 +88 21-3 2x-3 21-4 2x-4 21-6 2x-6 21-14 2x-14 21-7 +8k 22-2 2y-2 23-13",
  "2z-13 +8p 24-1 30-1 24-13 30-13 24-c 30-c +8z 26-1 32-1 26-13 32-13 26-c 32-c +98 27-4 33-4 27-6 33-6 27-b 33-b",
  "+9g 2a-1 36-1 2a-13 36-13 2a-c 36-c 2b-1 37-1 2b-2 37-2 2b-13 37-13 2b-c 37-c 2c-13 38-13 2c-c 38-c +a0 2d-3 39-3",
  "2d-4 39-4 2d-6 39-6 2d-a 39-a 2d-b 39-b 2d-14 39-14 2f-2 3b-2 2h-2 3d-2 2h-8 2i-1 3e-1 2i-7 3e-7 2i-c 3e-c +bk",
  "27-r 33-r +bz 2d-r 39-r +ct 1t-c 2p-c 21-c 2x-c 27-c 33-c 2d-c 39-c 64-4 70-4 64-1 70-1 64-c 70-c 64-0 70-0 +da",
  "5g-4 6c-4 fa-4 fb-4 5i-4 6e-4 +di 1z-c 2v-c 23-c 2z-c 27-14 33-14 dm-4 dn-4 c7-c ia-c 2y-c +dw 1z-1 2v-1 +e0 26-0",
  "32-0 5h-1 6d-1 5i-1 6e-1 60-1 6w-1 1t-f 2p-f 1t-h 2p-h 1x-f 2t-f 1x-h 2t-h 21-f 2x-f 21-h 2x-h 27-f 33-f 27-h",
  "33-h 2a-f 36-f 2a-h 36-h 2d-f 39-f 2d-h 39-h 2b-12 37-12 2c-12 38-12 +f2 20-c 2w-c +fa 1t-7 2p-7 1x-13 2t-13 5y-4",
  "6u-4 5x-4 6t-4 27-7 33-7 fi-4 fj-4 2h-4 3d-4 +n4 lc ld +n7 lv lk-1 +ok jd +ou 1n +p1 4o-1 pd-1 53 ph-1 pj-1 pl-1",
  "+p8 pr-1 +pa px-1 q1-1 qy-1 +q2 pl-8 px-8 q9-1 qd-1 qf-1 qh-1 qz-1 +qy qh-8 qt-8 qn-1 qt-1 qx-1 +r7 r6-1 r6-8 +sg",
  "t1-0 t1-8 +sj sz-1 +sn sm-8 +ss t6-1 t4-0 tf-6 +t5 t4-6 +u1 u0-6 +uo tx-0 tx-8 +ur tv-1 +uv uu-8 +v0 u2-1 u0-0",
  "ub-6 +vq vo-f vp-f +xt t2-6 ty-6 +y8 sw-6 ts-6 sw-8 ts-8 +ye t1-6 tx-6 +yi yg-8 yh-8 t2-8 ty-8 t3-8 tz-8 +yq t4-4",
  "u0-4 t4-8 u0-8 ta-8 u6-8 +yy yw-8 yx-8 tp-8 ul-8 tf-4 ub-4 tf-8 ub-8 tf-b ub-b tj-8 uf-8 +zc tn-8 uj-8 +17m",
  "17r-nn 17r-no 18o-no 17r-np 18q-no +1c0 1cl-no +1c2 1c1-no +1cj 1ci-no +1t5 1t4-18c +1td 1tc-18c +1tg 1tf-18c",
  "+1ug 1sl-18c 1sm-18c 1sn-18c 1ss-18c 1sx-18c 1sy-18c 1t7-18c 1tb-18c +1xn 1xj-1by 1xj-1cn +1y4 1wh-1bw 1wi-1bw",
  "+1y7 1wv-1bw +20j 20i-1fg +20m 20o-1fg +21l 1zq-1fg 1zr-1fg 1zw-1fg +21q 20b-1fg +288 287-1na +28b 287-1mm",
  "287-1nb +28s 275-1mk 276-1mk +2ac 2aa-1qv +2bu 2bq-1q6 2br-1q6 2bq-1qv +2fc 2fa-1ue +2io 2in-1xx +2iv 2iu-1xx",
  "2iu-1xy +2iy 2iu-1xe 2iy-1xx +2mi 2me-20u 2mf-20u 2me-21j +2qi 2qh-24q +2qk 2qh-24v 2qk-24q 2qh-25b +30j 30i-2if",
  "+30t 30s-2if +30y 30x-2if +313 312-2if +318 317-2if +31l 30g-2id +31v 31t-2gi +31x 31t-2gk 33m-2gw +320 33n-2gw",
  "+329 31t-2gw +32r 32q-2if +331 330-2if +336 335-2if +33b 33a-2if +33g 33f-2if +33t 32o-2id +36u 36t-2lq +5c6",
  "5c5-4s5 +5c8 5c7-4s5 +5ca 5c9-4s5 +5cc 5cb-4s5 +5ce 5cd-4s5 +5ci 5ch-4s5 +5dn 5dm-4s5 +5dp 5do-4s5 +5ds 5dq-4s5",
  "5dr-4s5 +5dv 5du-4s5 +5xc 1t-11 2p-11 1u-7 2q-7 1u-z 2q-z 1u-1d 2q-1d 5j-1 6f-1 1w-7 2s-7 1w-z 2s-z 1w-1d 2s-1d",
  "1w-13 2s-13 1w-19 2s-19 7m-0 7n-0 7m-1 7n-1 1x-19 2t-19 1x-1c 2t-1c fc-6 fd-6 1y-7 2u-7 1z-4 2v-4 20-7 2w-7 20-z",
  "2w-z 20-8 2w-8 20-13 2w-13 20-1a 2w-1a 21-1c 2x-1c 5r-1 6n-1 23-1 2z-1 23-z 2z-z 23-1d 2z-1d 24-z 30-z 5yu-4",
  "5yv-4 24-1d 30-1d 24-19 30-19 25-1 31-1 25-7 31-7 25-z 31-z 26-7 32-7 26-z 32-z 26-1d 32-1d 26-19 32-19 5x-1 6t-1",
  "5x-8 6t-8 98-0 99-0 98-1 99-1 28-1 34-1 28-7 34-7 2a-7 36-7 2a-z 36-z 5zu-4 5zv-4 2a-1d 36-1d 2b-7 37-7 2b-z 37-z",
  "9m-7 9n-7 9s-7 9t-7 602-7 603-7 2c-7 38-7 2c-z 38-z 2c-1d 38-1d 2c-19 38-19 2d-10 39-10 2d-1c 39-1c 2d-19 39-19",
  "a0-1 a1-1 a2-8 a3-8 2e-3 3a-3 2e-z 3a-z 2f-0 3b-0 2f-1 3b-1 2f-8 3b-8 2f-7 3b-7 2f-z 3b-z 2g-7 3c-7 2g-8 3c-8",
  "2h-7 3d-7 2i-2 3e-2 2i-z 3e-z 2i-1d 3e-1d 2w-1d 38-8 3b-a 3d-a +61n an-7 +61s 1t-z 2p-z 1t-9 2p-9 5e-1 6a-1 5e-0",
  "6a-0 5e-9 6a-9 5e-3 6a-3 61s-2 61t-2 76-1 77-1 76-0 77-0 76-9 77-9 76-3 77-3 61s-6 61t-6 1x-z 2t-z 1x-9 2t-9 1x-3",
  "2t-3 5m-1 6i-1 5m-0 6i-0 5m-9 6i-9 5m-3 6i-3 62g-2 62h-2 21-9 2x-9 21-z 2x-z 27-z 33-z 27-9 33-9 5w-1 6s-1 5w-0",
  "6s-0 5w-9 6s-9 5w-3 6s-3 630-2 631-2 bk-1 bl-1 bk-0 bl-0 bk-9 bl-9 bk-3 bl-3 bk-z bl-z 2d-z 39-z 2d-9 39-9 bz-1",
  "c0-1 bz-0 c0-0 bz-9 c0-9 bz-3 c0-3 bz-z c0-z 2h-0 3d-0 2h-z 3d-z 2h-9 3d-9 2h-3 3d-3 +64g q9-j q9-k 64g-0 64h-0",
  "64g-1 64h-1 64g-1u 64h-1u pd-j pd-k 64o-0 64p-0 64o-1 64p-1 64o-1u 64p-1u qd-j qd-k 64w-0 64x-0 64w-1 64x-1 +654",
  "ph-j ph-k 654-0 655-0 654-1 655-1 +65c qf-j qf-k 65c-0 65d-0 65c-1 65d-1 65c-1u 65d-1u pj-j pj-k 65k-0 65l-0",
  "65k-1 65l-1 65k-1u 65l-1u qh-j qh-k 65s-0 65t-0 65s-1 65t-1 65s-1u 65t-1u pl-j pl-k 660-0 661-0 660-1 661-1",
  "660-1u 661-1u qn-j qn-k 668-0 669-0 668-1 669-1 +66g pr-j pr-k 66g-0 66h-0 66g-1 66h-1 +66o qt-j qt-k 66o-0 66p-0",
  "66o-1 66p-1 66o-1u 66p-1u +66x px-k +66z 66x-0 +671 66x-1 +673 66x-1u qx-j qx-k 674-0 675-0 674-1 675-1 674-1u",
  "675-1u q1-j q1-k 67c-0 67d-0 67c-1 67d-1 67c-1u 67d-1u q9-0 q4 qd-0 q5 qf-0 q6 qh-0 q7 qn-0 r0 qt-0 r1 qx-0 r2",
  "+680 64g-1x 64h-1x 64i-1x 64j-1x 64k-1x 64l-1x 64m-1x 64n-1x 64o-1x 64p-1x 64q-1x 64r-1x 64s-1x 64t-1x 64u-1x",
  "64v-1x 65c-1x 65d-1x 65e-1x 65f-1x 65g-1x 65h-1x 65i-1x 65j-1x 65k-1x 65l-1x 65m-1x 65n-1x 65o-1x 65p-1x 65q-1x",
  "65r-1x 674-1x 675-1x 676-1x 677-1x 678-1x 679-1x 67a-1x 67b-1x 67c-1x 67d-1x 67e-1x 67f-1x 67g-1x 67h-1x 67i-1x",
  "67j-1x q9-6 q9-4 67k-1x q9-1x q4-1x +69i q9-1u 69i-1x pd-6 pd-4 pd-0 p2 pd-1x +69q qh +69t 4o-1u 67o-1x qf-1x",
  "q6-1x +69y qf-1u 69y-1x ph-0 p4 pj-0 p5 pj-1x 69r-0 69r-1 69r-1u qh-6 qh-4 qy-0 pc +6ae qh-1u qy-1u pl-6 pl-4",
  "pl-0 p6 +6al 6bi-0 6bi-1 6bi-1u qt-6 qt-4 qz-0 q8 qp-j qp-k qt-1u qz-1u px-6 px-4 px-0 pa pt-k 4o-0 p1 2o +6b6",
  "67w-1x qx-1x r2-1x +6ba qx-1u 6ba-1x pr-0 p8 q1-0 pb q1-1x 50 +6bk 6bm 6bn +6jq q1 +6ju 23 5h +6my 6mo-1k 6mq-1k",
  "+6ni 6ms-1k +6od 6og-1k 6ok-1k 6oi-1k +6pw 6pv-1k +6q1 6q0-1k +6q4 6q3-1k +6qs 6qr-1k +6qu 6qt-1k +6rl 6rg-1k",
  "+6ro 6rn-1k +6rr 6rp-1k +6rt 6rs-1k +6sg 1p-1k +6si 6sh-1k +6st 6rx-1k 1o-1k 1q-1k 6sk-1k 6sl-1k +6t0 6sy-1k",
  "6sz-1k +6t4 6t2-1k 6t3-1k +6tc 6t6-1k 6t7-1k +6tg 6te-1k 6tf-1k +6tk 6ti-1k 6tj-1k +6uk 6ua-1k 6ug-1k 6uh-1k",
  "6uj-1k +6w0 6t8-1k 6t9-1k 6tt-1k 6tu-1k +6wa 6uq-1k 6ur-1k 6us-1k 6ut-1k +6y1 9hk 9hl +8gs 8gt-1k +9jg 9jf-909",
  "+9ji 9jh-909 +9jk 9jj-909 +9jm 9jl-909 +9jo 9jn-909 +9jq 9jp-909 +9js 9jr-909 +9ju 9jt-909 +9jw 9jv-909 +9jy",
  "9jx-909 +9k0 9jz-909 +9k2 9k1-909 +9k5 9k4-909 +9k7 9k6-909 +9k9 9k8-909 +9kg 9kf-909 9kf-90a +9kj 9ki-909",
  "9ki-90a +9km 9kl-909 9kl-90a +9kp 9ko-909 9ko-90a +9ks 9kr-909 9kr-90a +9lg 9ja-909 +9lq 9lp-909 +9m4 9m3-909",
  "+9m6 9m5-909 +9m8 9m7-909 +9ma 9m9-909 +9mc 9mb-909 +9me 9md-909 +9mg 9mf-909 +9mi 9mh-909 +9mk 9mj-909 +9mm",
  "9ml-909 +9mo 9mn-909 +9mq 9mp-909 +9mt 9ms-909 +9mv 9mu-909 +9mx 9mw-909 +9n4 9n3-909 9n3-90a +9n7 9n6-909",
  "9n6-90a +9na 9n9-909 9n9-90a +9nd 9nc-909 9nc-90a +9ng 9nf-909 9nf-90a +9o4 9ly-909 +9o7 9nz-909 9o0-909 9o1-909",
  "9o2-909 +9oe 9od-909 +1d6o rpk kc4 s7e rt4 lw1 fg2 gkl vj0 vj0 hn5 ssx gw7 hmw jcm ne1 p6t qin qt6 r20 sjz kxu",
  "ljv mah mvy q4d sq2 uep fia ghh l50 mjf qi5 v8e ifk m3v qfh r50 jih pnc qvz iq2 kd3 lm2 mpo slq fpi g53 gda jwk",
  "l3n mj4 nhj pa9 qh2 qjg s1b tv6 upb v7e nt8 nzz otc q15 t1g vb3 rfa hjz iro okg pdq mle nuy rsy ttj hjs i8y kyb",
  "lp6 lxr oq7 oxj tor gcy pe3 g64 g5o o4c ou6 q29 tpx rk0 jin kxu rge fg9 i5j iz6 mtj n74 gev nwb fr3 iw9 ff1 lho",
  "k1k opu gjn hge ni9 q4p re2 la2 sds lfs jjy put jog n6t fji g2x g5l kn5 oo7 prj rf6 ssv gdx gn6 ho3 ir0 k3p m4e",
  "nxm tkd ui2 vbr vda gbf kau l87 sbm ino j9s jcw jve lyb mdl n0p o22 ovo pdb s9y q9a sgz t3e g7r gbn gql ma0 r0i",
  "re2 iq1 iyd jnf l9q oji mt1 fl0 h6h i5j iii izg muq mzt p7e pc6 svo tti tvs u1k fpn o1a ss4 trs j4x fie fyy i5q",
  "i7z k2h kxu mha ncy q9o sjg vil k94 tny gax kfv kj7 lkx luk mx5 n6h nsb opc u3i g31 je6 tq0 fu3 ie1 lpm sa2 ivf",
  "j7o kk7 mtj tqe g89 glr i91 k5v kem ko8 lid mx2 naa p6h r0v r1d sss tsy gfz lve gm5 mhc n14 qgq tr7 uvr vbz kgn",
  "lor pns o97 obk olu mo0 m8p riw fk0 px2 g8q g7b ip2 jir onq i2t ljy kac saj qx8 tot r63 iqb g1s gxs +1de8 hga",
  "+1dea k8k +1ded g66 mqy ngq ny4 nz2 nz9 o0f tw6 on2 p8d +1deo qhe +1deq rg8 +1det shk sn1 +1dey u7j u7w u94 v5g",
  "sm6 trr fqm fzb g25 gcp gdg ggh gwt gzq h2g hfk hig i90 i9a j2s j8o j9q jci k0f k4i k9d kn9 lmf lqy lya mem mjv",
  "mxu ntd ny6 nyh nyg nyo nyu nz1 o0d o0e o5c o75 og0 ovo ow9 oxt p6a pad pnx prt prt q53 r2o r6e rgh ri1 rtf ruw",
  "sdy shk tsz u0v u2j j1x 36cu pp4 +1dgw ffq g51 g2w fpc g1x g3k gcn ge2 gwt gut gwp gyq hga hir hms hn8 huq i08",
  "iqa iqh iuh iwd j4o j7y j60 j9q j8g jci jec jpg jrw jte k0m k8k kd3 kd7 keu l89 la2 lkx lwb lvv lya m5a mem nmv",
  "mk5 mnj mqy n01 n46 n5n nbx nbz ngq nh7 nhw nka nk0 nv0 o8h og0 ol7 orf ovo p4u pad pxu q27 qrd r41 r5y r6e ren",
  "rg8 rez rgh rge rfx ri1 rka ruw sag sj6 srd sxi tq4 tsz tw6 tzv u0v u17 u2j umq vj0 313e 3138 33dh brx cns cop",
  "39e1 3bgw 3i6r vgj vim +1dlp 15l-j8 +1dlr 16a-jb +1dm2 161-jl 161-jm 1dmx-jl 1dmx-jm 15c-jb 15c-jc 15c-jg 15d-jg",
  "15e-jg 15f-jg 15g-jg 15h-jg 15i-jg +1dmg 15k-jg 15l-jg 15m-jg 15n-jg 15o-jg +1dmm 15q-jg +1dmo 15s-jg 15t-jg",
  "+1dmr 15v-jg 15w-jg +1dmu 15y-jg 15z-jg 160-jg 161-jg 162-jg 15h-jd 15d-jj 15n-jj 15w-jj +1hui 1huh-1ha2 +1huk",
  "1huj-1ha2 +1huz 1hut-1ha2 +1hym 1hyp-1hd3 1hyq-1hd3 +1idn 1idj-1hry 1idj-1hsn +1inv 1int-1i2i 1int-1i28 +1iny",
  "1int-1i2l +1iuy 1iuw-1i9b 1iux-1i9b +1jjs 1jjp-1iy8 +2jxa 2jx3-2jc5 2jx4-2jc5 2jxb-2jce 2jxb-2jcf 2jxb-2jcg",
  "2jxb-2jch 2jxb-2jci +2jzv 2jzt-2jc5 2jzu-2jc5 2jzv-2jce 2jzw-2jce 2jzv-2jcf 2jzw-2jcf +464g fgd fg8 fgh 2tcy fog",
  "fqm fqz fsy fwa fx5 fzb fyn ae6 2ud6 g25 g2c g2s g3b 2u58 aex g2v g3x 2u6j g47 g4k fkc g4s g51 3ly7 g6t g77 afz",
  "g8r g92 gaa gaf ahh gcn gcp gdg ge2 ged gee gev gg9 ggh ggq ghf ghp ghr ghr ghr 2v58 m7k gju gkf 2vdv gkr gkx gli",
  "gpq gmw gnc go8 gpu gs6 gsw gur gv7 gw4 gw4 gwp gx7 gxf gxu h7a gzq h7b h1t h2s g7b hke hce hdg he5 haj hf6 hf5",
  "hik 2x9g hki hkn hl2 hlm hlu hnm 2xm0 2xnu hrg hsr ht3 hqw huu aum av0 hzc i0u i0u 2y88 i4j i54 i5j i5v 2yhk i67",
  "i6e itv i76 ayp i8w i9a ibk ia5 2z1g if7 2z1i ige igb igs ijl ijm b3j ikd ilk im5 ind b4y 2zr7 b5o ipc ipf ipi",
  "iq2 3pg2 iri 3035 3035 poh isi isi b7r 335k 3cgq iua iuj b8j ivu ix9 ixj iyh j29 bay ba4 j2s 30t0 j47 j7s j7w j7y",
  "j7w j96 j9q jaq jac jan jby jci jcm jdc jdn jfh jht jis jm8 31n0 jlp jjw jmw jnn jqc 31td js2 jph jop bhq ju1 jum",
  "jvh juf bjg k0f k18 32mi k4j kc8 k7d bo9 k9d bns bms g42 g45 kcg k9o pf1 deh kd3 kd7 kdd kf2 ker 33cz bpl kje kg5",
  "klu kn9 33hp kni kkf kr8 brx ksi kv7 kx6 l2g 33xf l3v bvc l5t 34br l78 bwu l82 l9b la2 la3 34p9 2yvf 34sa le6",
  "354s lhb lhp lev ljq lku lmf lkx lm1 lmg lmt 357i lkk lrj lta c37 lvv lvr 35jl lq1 m0e 35ni 35ou m2u m61 m5a m57",
  "c5y m6i m7x m7r m99 2u5h mdh 368z mfw 36i3 mjs mk5 mkw 36yw mm8 mmt 3779 37dg mt6 mtn cdo mud ce0 ce0 myv mzg n01",
  "n0l n2i cgr n50 386u n5q 389e n74 2zrz nbk 38v5 38vs 38zo cn0 cnc nhw 394j 394i 395l 396b nj2 nj3 nj3 nka cop nm3",
  "cp2 cra 39r1 nri nt8 nv0 ctf 3a5i nyu 3a8q 3a9x o0f o2z cvj o5c o5m o5r 3at8 3b1j 3b1j oa6 d1e 3b8r og6 og9 d2f",
  "3beo onm d5s oo8 oo3 oow 3c06 orn d8h ouf ow2 oxx d9w 3ciw 3cjr dax 3cnt p6i 3cqm p79 pa2 pad 3d22 3d43 pcw 3d7s",
  "pdc 33a7 ded pf6 phf dfv pj2 hx1 3dlz 3dmd 33bn 33bw poh pok sda dij psh psb pst gc3 ptd ptf ptp puu 3ebg put pwd",
  "pyb q0d pwj q0t q1z q53 pxv q16 q18 q1o 3eie 3eqz 3emt dnv q9d q9f qae 3g0a qck 3f3g dp9 dpd 3f75 3ff6 dpn qj4",
  "qjg qjr qjt qll qko qoe qn6 qrd qp4 qqz qrq dsn qu9 qv5 dtl qxs qxv 3giv r13 r1a dv9 r22 aez 3gz2 3h46 dz2 dzb",
  "rds rfx rka rpx 3hrc rsb rsx rvf rxz 3i9b 2upw s0b rzw s1c 2uvy s7o sag 3jki 3jl9 sk4 smp snl 3ju6 snv svs t07",
  "t08 sxo t89 t91 3ksa tjf ej9 tkn 3l2v eli ts3 iia tur 3ltx 3lzu epa epi u00 3mdm er6 3mhi u17 u17 u21 3mpi u76",
  "eur u95 ucn ude uf2 ez2 3nsg umq uv4 v0d f66 f71 v3b 3owe f7c 3oxx 3p5a 3p8x vcr f9y veh vem vet vf3 vfa vgb 3pxc"]

/-- Code points that composition never produces. -/
def compositionExclusionTable : CodeTable := .ranges [
  "n4-1 2-1 1c a 9 15d-7 3h-1 2 2c 3 z-2 3 72-1 rq a 5 5 5 d a 2-1 2 9 i a 5 5 5 d 33s 2 2 2 2 2 2 1q 3 b 2 8 8 8 8",
  "3-1 a 2 2 3-1 85 4-1 e6-1 1iq 14pw-7h 3 2 3-9 2 2 3-1 4-1v 3-2x 1w 2 b-c 2-4 2 2-1 2-1 2-8 16a8-6 2f-5 1m4g-f1"]

def combiningClassTable : CodeTable := .ranges [
  "lc-k:6e 1-0:6g 1-3:64 1-0:6g 1-0:60 1-4:64 1-1:5m 1-3:64 1-1:5m 1-a:64 1-4:1 1-3:64 1-7:6e 1-0:6o 1-0:6e 1-2:64",
  "1-2:6e 1-1:64 2-2:6e 1-3:64 1-0:6e 1-0:6g 1-1:64 1-0:6e 1-0:6h 1-1:6i 1-0:6h 1-1:6i 1-0:6h 1-c:6e 7o-4:6e 7e-0:64",
  "1-3:6e 1-0:64 1-2:6e 1-0:66 1-0:64 1-5:6e 1-5:64 1-1:6e 1-0:64 1-1:6e 1-0:66 1-0:6c 1-0:6e 1-0:a 1-0:b 1-0:c",
  "1-0:d 1-0:e 1-0:f 1-0:g 1-0:h 1-0:i 1-1:j 1-0:k 1-0:l 1-0:m 2-0:n 2-0:o 1-0:p 2-0:6e 1-0:64 2-0:i 21-7:6e 1-0:u",
  "1-0:v 1-0:w 1d-0:r 1-0:s 1-0:t 1-0:u 1-0:v 1-0:w 1-0:x 1-0:y 1-1:6e 1-1:64 1-4:6e 1-0:64 1-1:6e 1-0:64 h-0:z",
  "2u-6:6e 3-3:6e 1-0:64 1-0:6e 3-1:6e 2-0:64 1-1:6e 1-0:64 10-0:10 v-0:6e 1-0:64 1-1:6e 1-0:64 1-1:6e 1-2:64 1-0:6e",
  "1-1:64 1-0:6e 1-0:64 1-2:6e 1-0:64 1-0:6e 1-0:64 1-0:6e 1-0:64 1-0:6e 1-0:64 1-1:6e 4h-6:6e 1-0:64 1-0:6e a-0:64",
  "p-3:6e 2-8:6e 2-2:6e 2-4:6e 18-2:64 1p-0:6e 1-2:64 1-3:6e 17-4:6e 1-4:64 1-d:6e 2-0:64 1-1:6e 1-0:64 1-1:6e",
  "1-0:64 1-2:6e 1-2:64 1-0:r 1-0:s 1-0:t 1-2:6e 1-0:64 1-1:6e 1-1:64 1-4:6e 1p-0:7 h-0:9 4-0:6e 1-0:64 1-1:6e",
  "2w-0:7 h-0:9 1d-0:6e 1q-0:7 h-0:9 33-0:7 h-0:9 33-0:7 h-0:9 3k-0:9 33-0:7 h-0:9 8-0:2c 1-0:2j 2u-0:7 h-0:9 32-1:9",
  "h-0:9 3h-0:9 32-1:2v 1-0:9 e-3:2z 31-1:3a 1-0:9 e-3:3e 25-1:64 s-0:64 2-0:64 2-0:60 1k-0:3l 1-0:3m 2-0:3o 6-3:3m",
  "3-0:3m 2-1:6e 1-0:9 2-1:6e 1r-0:64 35-0:7 2-1:9 2b-0:64 k0-2:6e qd-1:9 v-0:9 4e-0:9 b-0:6e 5o-0:6c 40-0:66 1-0:6e",
  "1-0:64 64-0:6e 1-0:64 20-0:9 l-7:6e 3-0:64 1d-4:6e 1-5:64 1-1:6e 1-0:64 2-1:64 1-1:6e 1-1:64 1-4:6e 1-0:64 1-3:6e",
  "2u-0:7 g-0:9 13-0:6e 1-0:64 1-6:6e 1j-1:9 1n-0:7 c-1:9 1w-0:7 49-2:6e 2-0:1 1-4:64 1-1:6e 1-3:64 1-0:6e 2-6:1",
  "5-0:64 7-0:6e 4-1:6e 5j-1:6e 1-0:64 1-6:6e 1-0:64 1-1:6e 1-0:6i 1-0:5y 1-0:64 1-0:5m 1-10:6e 1-0:6g 1-1:6c 1-0:64",
  "1-0:62 1-0:6e 1-0:6h 1-0:64 1-0:6e 1-0:64 k1-1:6e 1-1:1 1-3:6e 1-2:1 1-1:6e 5-0:6e 4-1:1 1-0:6e 1-0:64 1-0:6e",
  "1-1:1 1-3:64 1-0:6e 2db-2:6e 3y-0:9 2p-v:6e ff-0:62 1-0:6c 1-0:6g 1-0:66 1-1:68 2y-1:8 n9x-0:6e 5-9:6e x-1:6e",
  "29-1:6e 7p-0:9 12-0:9 48-0:9 s-h:6e 1m-2:64 12-0:9 2o-0:7 d-0:9 6o-0:6e 2-1:6e 1-0:64 3-1:6e 6-1:6e 2-0:6e 1h-0:9",
  "6v-0:9 fn5-0:q le-6:6e 1-6:64 1-1:6e r2-0:64 6b-0:64 46-4:6e 1ar-0:64 2-0:6e 15-0:6e 1-0:1 1-0:64 5-0:9 4m-0:6e",
  "1-0:64 fy-3:6e as-1:6e 29-2:64 1z-1:64 1-2:6e 1-0:64 1-0:6e 1-3:64 1e-0:6e 1-0:64 1-0:6e 1-0:64 5d-0:9 16-0:9",
  "f-0:9 1m-0:9 1-0:7 1y-2:6e 1d-1:9 1r-0:7 25-0:9 a-0:7 2z-0:9 1-0:7 4z-0:7 1-0:9 29-1:7 h-0:9 p-6:6e 4-4:6e 5q-0:9",
  "4-0:7 o-0:6e 2s-0:9 1-0:7 70-0:9 1-0:7 3j-0:9 3b-0:9 1-0:7 38-0:9 7i-0:9 1-0:7 77-1:9 5-0:7 4d-0:9 2c-0:9 j-0:9",
  "2a-0:9 bq-0:9 77-0:7 2-1:9 2a-0:9 bu-1:9 ey6-4:1 1o-6:6e xm-1:6 f59-0:1 43r-1:60 1-2:1 4-0:6a 1-4:60 9-7:64",
  "3-4:6e 1-1:64 v-3:6e 45-2:6e 2po-6:6e 2-g:6e 3-6:6e 2-1:6e 2-4:6e 2t-0:6e 4h-6:6e ag-0:6e 1q-3:6e e5-1:6g 1-0:64",
  "1-0:6e rl-6:64 32-5:6e 1-0:7"]

end GenericC.Text
